/-!
# Columns of a listing

A field is padded on its right with blanks and never cut.
-/

namespace YaslLexis.Text

/-- The field followed by as many blanks as it lacks to the width. -/
def padRight (width : Nat) (field : String) : String :=
  field ++ String.ofList (List.replicate (width - field.length) ' ')

@[simp] theorem toList_padRight (width : Nat) (field : String) :
    (padRight width field).toList = field.toList ++ List.replicate (width - field.length) ' ' := by
  simp [padRight]

end YaslLexis.Text
