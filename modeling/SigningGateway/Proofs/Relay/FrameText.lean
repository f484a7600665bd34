import SigningGateway.Proofs.Json.RoundTrip
import SigningGateway.Relay.Frame

/-!
# Frames and their texts

Whatever travels on the streams of the relay is read back from its JSON text as it was: frames of
nodes, frames to nodes, frames of signer sessions, and the requests, contexts and responses in them.
A frame is written with its tag first; the reader keeps the other members until it knows the tag, and
reads them as the record of the variant then.

    decode f.toJson = .ok f                    (NodeFrame.decode_toJson, RelayFrame.decode_toJson,
                                                                        SignerFrame.decode_toJson)
    every type of the streams is lossless                                        (frames_lossless)
-/

namespace SigningGateway

open Json Json.Record

/-! ## Members that are kept -/

theorem isStorable_word64 (depth : Nat) (n : UInt64) :
    (Json.nat n.toNat).isStorable depth = true :=
  isStorable_nat depth n.toNat n.toNat_lt_size

theorem isStorable_word32 (depth : Nat) (n : UInt32) :
    (Json.nat n.toNat).isStorable depth = true :=
  isStorable_nat depth n.toNat (Nat.lt_trans n.toNat_lt_size (by decide))

theorem isStorable_payloadJson (depth : Nat) (raw : Bytes) :
    (payloadJson raw).isStorable depth = true :=
  isStorable_text depth _

@[simp] theorem hexBytes_payloadJson (raw : Bytes) : Decode.hexBytes (payloadJson raw) = .ok raw :=
  Decode.hexBytes_encode raw

/-! ## Requests and responses -/

theorem RequestContext.decode_toJson (c : RequestContext) : decode c.toJson = .ok c := by
  have hread := read_ofFields fields _
    (.cons (fits_field _ _ _ _ (Decode.nodeId_toHex c.node)) <|
    .cons (fits_field _ _ _ _ (Decode.word64_toNat c.dbid)) <|
    .cons (fits_field _ _ _ _ (Decode.word64_toNat c.capabilities)) .nil) (by decide)
  rw [decode, toJson, hread]
  simp [bind, Except.bind, pure, Except.pure]

theorem RequestContext.isStorable_toJson (c : RequestContext) :
    c.toJson.isStorable keptDepth = true := by
  simp [toJson, ofFields, keptDepth, isStorable, membersStorable, isStorable_text,
    isStorable_word64]

namespace Request

theorem fits_members (r : Request) : List.Forall₂ Fits fields r.members :=
  .cons (fits_field _ _ _ _ (Decode.word32_toNat r.id)) <|
  .cons (fits_field _ _ _ _ r.context.decode_toJson) <|
  .cons (fits_field _ _ _ _ (hexBytes_payloadJson r.raw)) .nil

theorem ofValues_members (r : Request) : ofValues (valueOf r.members) = .ok r := by
  simp [ofValues, members, r.context.decode_toJson, bind, Except.bind, pure, Except.pure]

theorem decode_toJson (r : Request) : decode r.toJson = .ok r := by
  rw [decode, toJson, read_ofFields fields _ r.fits_members (by decide)]
  exact r.ofValues_members

theorem kept_members (r : Request) : ∀ m ∈ r.members, IsKept tagName m := by
  simp [members, IsKept, tagName, isStorable_word32, r.context.isStorable_toJson,
    isStorable_payloadJson]

end Request

namespace Response

theorem fits_members (r : Response) : List.Forall₂ Fits fields r.members :=
  .cons (fits_field _ _ _ _ (Decode.word32_toNat r.id)) <|
  .cons (fits_field _ _ _ _ (hexBytes_payloadJson r.raw)) .nil

theorem ofValues_members (r : Response) : ofValues (valueOf r.members) = .ok r := by
  simp [ofValues, members, bind, Except.bind, pure, Except.pure]

theorem decode_toJson (r : Response) : decode r.toJson = .ok r := by
  rw [decode, toJson, read_ofFields fields _ r.fits_members (by decide)]
  exact r.ofValues_members

theorem kept_members (r : Response) : ∀ m ∈ r.members, IsKept tagName m := by
  simp [members, IsKept, tagName, isStorable_word32, isStorable_payloadJson]

end Response

/-! ## Frames -/

section
variable {α : Type} (variants : List (String × α)) (tag : String) (variant : α)
  (hchoice : Decode.choice variants tag = .ok variant) (front fields all : List Field)
  (hall : all = front ++ fields) (members : List (String × Json))
  (hkept : ∀ m ∈ members, IsKept tagName m) (hfront : ∀ f ∈ front, f.presence ≠ .required)
  (hfits : List.Forall₂ Fits fields members) (hnames : (all.map Field.name).Nodup)
include hchoice hall hkept hfront hfits hnames

/-- A written frame gives its variant, and each field of the variant its value.  The fields in front
may be left out. -/
theorem read_taggedJson :
    readTagged variants (taggedJson tag members) = .ok (variant, .ofFields members) ∧
      read all (.ofFields members) = .ok (valueOf members) := by
  subst hall
  exact ⟨readTagged_ofFields variants tag variant hchoice members hkept,
    readMembers_fits front fields members hfront hfits hnames⟩

end

theorem NodeFrame.decode_toJson (f : NodeFrame) : decode f.toJson = .ok f := by
  cases f with
  | request tag dbid capabilities raw =>
    obtain ⟨htag, hread⟩ := read_taggedJson variants "request" .request rfl [] _ requestFields rfl
      [("tag", .nat tag.toNat), ("dbid", .nat dbid.toNat),
        ("capabilities", .nat capabilities.toNat), ("raw", payloadJson raw)]
      (by simp [IsKept, tagName, isStorable_word64, isStorable_payloadJson]) (by simp)
      (.cons (fits_field _ _ _ _ (Decode.word64_toNat tag)) <|
        .cons (fits_field _ _ _ _ (Decode.word64_toNat dbid)) <|
        .cons (fits_field _ _ _ _ (Decode.word64_toNat capabilities)) <|
        .cons (fits_field _ _ _ _ (hexBytes_payloadJson raw)) .nil) (by decide)
    rw [decode, toJson, htag]
    simp only [bind, Except.bind, hread]
    simp [pure, Except.pure]
  | grant dbid capabilities =>
    obtain ⟨htag, hread⟩ := read_taggedJson variants "grant" .grant rfl [] _ grantFields rfl
      [("dbid", .nat dbid.toNat), ("capabilities", .nat capabilities.toNat)]
      (by simp [IsKept, tagName, isStorable_word64]) (by simp)
      (.cons (fits_field _ _ _ _ (Decode.word64_toNat dbid)) <|
        .cons (fits_field _ _ _ _ (Decode.word64_toNat capabilities)) .nil) (by decide)
    rw [decode, toJson, htag]
    simp only [bind, Except.bind, hread]
    simp [pure, Except.pure]

namespace RelayFrame

theorem decode_response (tag : UInt64) (id : UInt32) (raw : Bytes) :
    decode (response tag id raw).toJson = .ok (.response tag id raw) := by
  obtain ⟨htag, hread⟩ := read_taggedJson variants "response" .response rfl [] _ responseFields rfl
    [("tag", .nat tag.toNat), ("request_id", .nat id.toNat), ("raw", payloadJson raw)]
    (by simp [IsKept, tagName, isStorable_word64, isStorable_word32, isStorable_payloadJson])
    (by simp)
    (.cons (fits_field _ _ _ _ (Decode.word64_toNat tag)) <|
      .cons (fits_field _ _ _ _ (Decode.word32_toNat id)) <|
      .cons (fits_field _ _ _ _ (hexBytes_payloadJson raw)) .nil) (by decide)
  rw [decode, toJson, htag]
  simp only [bind, Except.bind, hread]
  simp [pure, Except.pure]

/-- An error frame is read back with its tag, and without one. -/
theorem decode_error (tag : Option UInt64) (kind message : String) :
    decode (error tag kind message).toJson = .ok (.error tag kind message) := by
  have hrest : List.Forall₂ Fits [field "kind" Decode.text, field "message" Decode.text]
      [("kind", .text kind), ("message", .text message)] :=
    .cons (fits_field _ _ _ _ (Decode.text_text kind)) <|
      .cons (fits_field _ _ _ _ (Decode.text_text message)) .nil
  cases tag with
  | none =>
    -- the member is left out, and its field is one that may be
    obtain ⟨htag, hread⟩ := read_taggedJson variants "error" .error rfl
      [defaultedField "tag" (Decode.nullable Decode.word64)] _ errorFields rfl _
      (by simp [IsKept, tagName, isStorable_text]) (by simp [defaultedField]) hrest (by decide)
    rw [decode, toJson, tagMember, List.nil_append, htag]
    simp only [bind, Except.bind, hread]
    simp [Decode.nullable, pure, Except.pure]
  | some tag =>
    have hnullable : Decode.nullable Decode.word64 (.nat tag.toNat) = .ok (some tag) :=
      Decode.nullable_ofOption Decode.word64 (fun n => .nat n.toNat) (some tag)
        (by rintro _ ⟨⟩) fun n _ => Decode.word64_toNat n
    obtain ⟨htag, hread⟩ := read_taggedJson variants "error" .error rfl [] _ errorFields rfl
      (("tag", .nat tag.toNat) :: _) (by simp [IsKept, tagName, isStorable_text, isStorable_word64])
      (by simp) (.cons (fits_defaultedField _ _ _ _ hnullable) hrest) (by decide)
    rw [decode, toJson, tagMember, List.singleton_append, htag]
    simp only [bind, Except.bind, hread]
    simp [hnullable, pure, Except.pure]

theorem decode_toJson (f : RelayFrame) : decode f.toJson = .ok f := by
  cases f with
  | response tag id raw => exact decode_response tag id raw
  | error tag kind message => exact decode_error tag kind message

theorem isPlain_toJson (f : RelayFrame) : f.toJson.isPlain = true := by
  cases f with
  | response tag id raw => rfl
  | error tag kind message => cases tag <;> rfl

end RelayFrame

namespace SignerFrame

theorem decode_toJson (f : SignerFrame) : decode f.toJson = .ok f := by
  cases f with
  | request r =>
    obtain ⟨htag, hread⟩ := read_taggedJson variants "request" .request rfl [] _ Request.fields rfl
      r.members r.kept_members (by simp) r.fits_members (by decide)
    rw [decode, toJson, htag]
    simp only [bind, Except.bind, hread, r.ofValues_members, pure, Except.pure]
  | response r =>
    obtain ⟨htag, hread⟩ := read_taggedJson variants "response" .response rfl [] _ Response.fields
      rfl r.members r.kept_members (by simp) r.fits_members (by decide)
    rw [decode, toJson, htag]
    simp only [bind, Except.bind, hread, r.ofValues_members, pure, Except.pure]

end SignerFrame

/-! ## Nothing is lost -/

/-- Every frame, request, context and response is read back from its text, and from the bytes of the
text, as it was: all numbers, payloads, kinds, messages and tags of it.  A value that was read from
any other text is read again from its own, and no two different ones share a text. -/
theorem frames_lossless :
    Lossless NodeFrame.toJson NodeFrame.decode ∧ Lossless RelayFrame.toJson RelayFrame.decode ∧
      Lossless SignerFrame.toJson SignerFrame.decode ∧ Lossless Request.toJson Request.decode ∧
      Lossless Response.toJson Response.decode ∧
      Lossless RequestContext.toJson RequestContext.decode := by
  refine ⟨?_, ?_, ?_, ?_, ?_, ?_⟩
  · exact lossless_of_decode (fun f => by cases f <;> rfl) NodeFrame.decode_toJson
  · exact lossless_of_decode RelayFrame.isPlain_toJson RelayFrame.decode_toJson
  · exact lossless_of_decode (fun f => by cases f <;> rfl) SignerFrame.decode_toJson
  · exact lossless_of_decode (fun _ => rfl) Request.decode_toJson
  · exact lossless_of_decode (fun _ => rfl) Response.decode_toJson
  · exact lossless_of_decode (fun _ => rfl) RequestContext.decode_toJson

/-- Quotes, backslashes and control characters are escaped, and a tag that is missing is left out. -/
example : (RelayFrame.error none "a\"b" "\\\n\x01").toJson.compact =
    "\x7b\"type\":\"error\",\"kind\":\"a\\\"b\",\"message\":\"\\\\\\n\\u0001\"\x7d" := by
  decide +kernel

end SigningGateway
