/-!
# The ids of contexts

An id is a number of 128 bits, written with 26 digits of a base of 32 that
leaves out letters which are easily mistaken for others.
-/

namespace LiveScene.Sandbox

/-- The digits of the text of an id, by their values. -/
def idDigits : List Char := "0123456789ABCDEFGHJKMNPQRSTVWXYZ".toList

/-- The text of an id as it is always written: 26 digits of five bits each,
of which the first one has only three. -/
def idText? (text : String) : Option String := do
  let digits ← text.toList.mapM fun c =>
    let c := c.toUpper
    if idDigits.contains c then some c else none
  match digits with
  | first :: rest =>
    if rest.length = 25 then
      some (String.ofList (idDigits.getD (idDigits.idxOf first % 8) first :: rest))
    else none
  | [] => none

end LiveScene.Sandbox
