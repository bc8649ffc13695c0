/-
  DynamicQuorum/Text/Padding.lean
  ===============================
  **Setting a numeral in a field of a given width.**

  A numeral that is shorter than its field is filled up, by default with blanks on the left.
  A numeral may be written with a plus sign; zero padding stands between the sign and
  the digits and overrides any other fill.
-/

namespace DynamicQuorum.Text

/-- Where a numeral stands in a field that is wider than it. -/
inductive Alignment where
  | left
  | center
  | right
deriving DecidableEq, Repr

/-- How a text is set in a field.  With `plus` a plus sign is written in front, and with `zeros` the
    field is filled with zeros behind the sign. -/
structure FieldStyle where
  width : Nat := 0
  fill : Char := ' '
  alignment : Alignment := .right
  plus : Bool := false
  zeros : Bool := false
deriving DecidableEq, Repr

/-- Set the digits of a number that is not negative. -/
def FieldStyle.set (style : FieldStyle) (digits : List Char) : List Char :=
  let sign : List Char := if style.plus then ['+'] else []
  let missing := style.width - (sign.length + digits.length)
  if style.zeros then sign ++ List.replicate missing '0' ++ digits
  else
    let before := match style.alignment with
      | .left => 0
      | .center => missing / 2
      | .right => missing
    List.replicate before style.fill ++ sign ++ digits ++
      List.replicate (missing - before) style.fill

def zeroPad (width : Nat) (digits : List Char) : List Char :=
  List.replicate (width - digits.length) '0' ++ digits

end DynamicQuorum.Text
