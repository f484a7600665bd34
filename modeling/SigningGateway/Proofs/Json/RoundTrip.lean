import SigningGateway.Proofs.Json.Reading
import SigningGateway.Proofs.Json.Records

/-!
# Values that survive their written form

A type is *lossless* in JSON if every value is read back from what is written of it.  Two things
make it so: its JSON form is plain, so that the text reads as that form, and its decoder undoes
the form.

    isPlain v → decodeText d v.compact = d v                                 (decodeText_compact)
    plain forms, decode (write a) = .ok a → Lossless write decode                (lossless_of_decode)
-/

namespace SigningGateway

namespace Json

variable {α : Type}

/-! ## Written texts -/

/-- A decoder of texts meets the value that was written. -/
theorem decodeText_compact (d : Decoder α) (v : Json) (h : v.isPlain = true) :
    decodeText d v.compact = d v := by
  rw [decodeText, Document.ofText, compact, String.toList_ofList, ofChars_write v h,
    Document.decode]
  cases d v <;> rfl

/-- A decoder of bytes meets the value that was written. -/
theorem decodeBytes_write (d : Decoder α) (v : Json) (h : v.isPlain = true) :
    decodeBytes d (Utf8.encode v.write) = d v := by
  rw [decodeBytes, Document.ofBytes_encode, ofChars_write v h, Document.decode]
  cases d v <;> rfl

/-! ## Lossless types -/

/-- Nothing is lost between the values of a type and their texts. -/
structure Lossless (write : α → Json) (decode : Decoder α) : Prop where
  /-- A value is read back from its text. -/
  ofText : ∀ a, decodeText decode (write a).compact = .ok a
  /-- A value is read back from the bytes of its text. -/
  ofBytes : ∀ a, decodeBytes decode (Bytes.ofText (write a).compact) = .ok a
  /-- Whatever text a value was read from, it is read again from the text that is written of it. -/
  again : ∀ text a, decodeText decode text = .ok a → decodeText decode (write a).compact = .ok a
  /-- Different values have different texts. -/
  apart : ∀ a b, (write a).compact = (write b).compact → a = b

/-- A type is lossless if its forms are plain and its decoder undoes them. -/
theorem lossless_of_decode {write : α → Json} {decode : Decoder α}
    (hplain : ∀ a, (write a).isPlain = true) (hdecode : ∀ a, decode (write a) = .ok a) :
    Lossless write decode := by
  have htext : ∀ a, decodeText decode (write a).compact = .ok a := fun a =>
    (decodeText_compact decode (write a) (hplain a)).trans (hdecode a)
  refine ⟨htext, fun a => ?_, fun _ a _ => htext a, fun a b hsame => ?_⟩
  · rw [Bytes.ofText, compact, String.toList_ofList]
    exact (decodeBytes_write decode (write a) (hplain a)).trans (hdecode a)
  · have hread := htext a
    rw [hsame, htext b] at hread
    exact (Except.ok.inj hread).symm

end Json

end SigningGateway
