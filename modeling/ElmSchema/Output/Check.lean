import ElmSchema.Text.Loose

/-!
# Checks of Elm code

What has to hold of generated code before it may be written: it starts with the head of a
module, and it has as many opening as closing parentheses. The code is a loose text, so the
check does not tell whether it can be written as bytes.
-/

namespace ElmSchema

/-- Why code may not be written. -/
inductive Rejection where
  | noModuleHead
  | unbalanced (opening : Nat) (closing : Nat)
deriving DecidableEq, Repr

/-- The wording of a rejection. -/
def Rejection.message : Rejection → String
  | .noModuleHead => "Generated Elm code is missing the module declaration"
  | .unbalanced opening closing =>
    "Generated Elm code has unbalanced parentheses: " ++ toString opening ++ " open, " ++
      toString closing ++ " close"

/-- Check generated code. -/
def checkCode (code : LooseText) : Except Rejection Unit :=
  let opening := code.count (.char '(')
  let closing := code.count (.char ')')
  if !(LooseText.ofString "module ").isPrefixOf code then .error .noModuleHead
  else if opening != closing then .error (.unbalanced opening closing)
  else .ok ()

end ElmSchema
