/-!
# Plain text

What a terminal takes for a control sequence (escape, opening bracket, any digits, semicolons and
question marks, one ASCII letter) is dropped from messages that need not reach a terminal.
-/

namespace YaslLexis.Text.Plain

/-- The character that opens a control sequence. -/
def escape : Char := '\x1b'

/-- The characters between the bracket and the letter. -/
def isParameter (c : Char) : Bool := c.isDigit || c = ';' || c = '?'

/-- The text after the parameters and the letter that end a control sequence, if they are there. -/
def afterSequence : List Char → Option (List Char)
  | [] => none
  | c :: rest =>
    if isParameter c then afterSequence rest else if c.isAlpha then some rest else none

theorem length_afterSequence {text after : List Char} (h : afterSequence text = some after) :
    after.length < text.length := by
  induction text with
  | nil => simp [afterSequence] at h
  | cons c rest ih =>
    unfold afterSequence at h
    split at h
    · have := ih h
      simp only [List.length_cons]
      omega
    · split at h
      · simp only [Option.some.injEq] at h
        simp [h]
      · simp at h

/-- The text after a whole control sequence, if it begins with one. -/
def afterControl : List Char → Option (List Char)
  | c :: '[' :: rest => if c = escape then afterSequence rest else none
  | _ => none

theorem length_afterControl {text after : List Char} (h : afterControl text = some after) :
    after.length < text.length := by
  unfold afterControl at h
  split at h
  · split at h
    · have := length_afterSequence h
      simp only [List.length_cons]
      omega
    · simp at h
  · simp at h

/-- The text without its control sequences, searched from left to right. -/
def strip : List Char → List Char
  | [] => []
  | c :: rest =>
    match _h : afterControl (c :: rest) with
    | some after => strip after
    | none => c :: strip rest
termination_by text => text.length
decreasing_by
  · exact length_afterControl _h
  · simp

end Plain

/-- The text without its control sequences. -/
def plain (text : String) : String := String.ofList (Plain.strip text.toList)

end YaslLexis.Text
