import SigningGateway.Bytes

/-!
# Text as bytes

`Utf8.encode` writes text in UTF-8.  `Utf8.chars` reads the characters of any byte string, passing
over the bytes that belong to none; `Utf8.decode?` takes no such bytes.

    chars (encode cs) = cs.map some                        (chars_encode)
    decode? (encode cs) = some cs                          (decode?_encode)
-/

namespace SigningGateway

namespace Utf8

/-- The bytes of a list of characters. -/
def encode (cs : List Char) : Bytes := cs.flatMap String.utf8EncodeChar

/-- The first character of a byte string, if the string starts with one.
No character takes more than four bytes. -/
def firstChar? (bytes : Bytes) : Option Char := (bytes.take 4).toByteArray.utf8DecodeChar? 0

/-- The characters of a byte string, and none for each byte that belongs to no character. -/
def chars : Bytes → List (Option Char)
  | [] => []
  | b :: rest =>
    match firstChar? (b :: rest) with
    | none => none :: chars rest
    | some c => some c :: chars (rest.drop (c.utf8Size - 1))
termination_by bytes => bytes.length
decreasing_by all_goals simp only [List.length_drop, List.length_cons]; omega

/-- The text of a byte string that is UTF-8 throughout. -/
def decode? (bytes : Bytes) : Option (List Char) := (chars bytes).mapM id

/-! ## Lemmas -/

theorem length_utf8EncodeChar (c : Char) : (String.utf8EncodeChar c).length = c.utf8Size := by
  simp

theorem firstChar?_encode_append (c : Char) (rest : Bytes) :
    firstChar? (String.utf8EncodeChar c ++ rest) = some c := by
  have hsize : (String.utf8EncodeChar c).length ≤ 4 := by
    rw [length_utf8EncodeChar]; exact c.utf8Size_le_four
  unfold firstChar?
  rw [List.take_append, List.take_of_length_le hsize, List.toByteArray_append]
  exact ByteArray.utf8DecodeChar?_utf8EncodeChar_append

theorem chars_encodeChar_append (c : Char) (rest : Bytes) :
    chars (String.utf8EncodeChar c ++ rest) = some c :: chars rest := by
  have hpos := c.utf8Size_pos
  have hlen := length_utf8EncodeChar c
  have hfirst := firstChar?_encode_append c rest
  cases hc : String.utf8EncodeChar c with
  | nil => rw [hc] at hlen; simp at hlen; omega
  | cons b tail =>
    rw [hc] at hfirst hlen
    have hdrop : (tail ++ rest).drop (c.utf8Size - 1) = rest := by
      have : c.utf8Size - 1 = tail.length := by simp at hlen; omega
      rw [this, List.drop_left]
    simp only [List.cons_append] at hfirst ⊢
    rw [chars, hfirst]
    simp only [hdrop]

@[simp] theorem chars_encode (cs : List Char) : chars (encode cs) = cs.map some := by
  induction cs with
  | nil => simp [encode, chars]
  | cons c cs ih =>
    have : encode (c :: cs) = String.utf8EncodeChar c ++ encode cs := by simp [encode]
    rw [this, chars_encodeChar_append, ih, List.map_cons]

@[simp] theorem decode?_encode (cs : List Char) : decode? (encode cs) = some cs := by
  rw [decode?, chars_encode]
  induction cs with
  | nil => rfl
  | cons c cs ih => simp [List.mapM_cons, ih]

end Utf8

def Bytes.ofText (text : String) : Bytes := Utf8.encode text.toList

end SigningGateway
