/-!
# The limit of calls

The number of calls that can be under way at the same time is limited. Calls are counted
where the input decides how many of them are inside each other: in the reading of documents
and of settings, which follows the nesting of the text, and in the making of directories,
where each directory that is missing takes a call inside the one for the directory below it.
Who reads or makes these is told how many calls are under way.

Elsewhere calls are not counted. The type of a field is found by one call for each node of
its chain, but a chain that was read from a text has at most four nodes up to its name or
its second list, so the limit is out of reach. A document that is built by hand may mark a
type as required any number of times, and for such a document the limit is left out.
-/

namespace ElmSchema

/-- The number of calls that can be under way. -/
def maxCalls : Nat :=
  1000

end ElmSchema
