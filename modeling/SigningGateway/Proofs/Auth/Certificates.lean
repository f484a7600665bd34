import SigningGateway.Proofs.Auth.Accepting
import SigningGateway.Proofs.Json.RoundTrip
import SigningGateway.Proofs.Text.Integers

/-!
# Issued certificates and the proofs made with them

A certificate is read back from its bytes and from its header, whatever the name of its holder, and
so is the proof of a request from its two headers.  What the issuer signed is what it checks
again: the body that was read back is written as the same bytes.

    decode c.toJson = .ok c                                              (Certificate.decode_toJson)
    proof made, key of 32 bytes → check ↔ close in time ∧ accepted          (RequestProof.check_made)
    what was issued is read back, and is good for requests                  (issued_survives_headers)
-/

namespace SigningGateway

open Json Json.Record

/-! ## Signatures -/

namespace Ed25519

/-- Strict verification accepts the signature of a message with the key of a seed. -/
def Accepts (seed message : Bytes) : Prop :=
  verify (publicKey seed) message (sign seed message) = true

theorem length_publicKey (seed : Bytes) : (publicKey seed).length = 32 := by
  simp [publicKey, Point.compress]

theorem length_sign (seed message : Bytes) : (sign seed message).length = 64 := by
  simp [sign, Point.compress]

/-- Only under a public key is a signature accepted. -/
theorem isPublicKey_of_verify (key message signature : Bytes)
    (h : verify key message signature = true) : isPublicKey key = true := by
  unfold verify at h
  cases hkey : Point.decompress? key with
  | some point => simp [isPublicKey, hkey]
  | none => simp [hkey] at h

end Ed25519

/-! ## Values of headers -/

/-- The value of a header holds a text, with blanks around it. -/
def HeaderHolds (value text : String) : Prop :=
  ∃ front back : List Char, (∀ c ∈ front, Text.isBlank c = true) ∧
    (∀ c ∈ back, Text.isBlank c = true) ∧ value.toList = front ++ text.toList ++ back

theorem headerHolds_self (text : String) : HeaderHolds text text :=
  ⟨[], [], by simp, by simp, by simp⟩

theorem headerHolds_append (front text back : String) (hfront : front.toList.all Text.isBlank)
    (hback : back.toList.all Text.isBlank) : HeaderHolds (front ++ text ++ back) text :=
  ⟨front.toList, back.toList, List.all_eq_true.1 hfront, List.all_eq_true.1 hback, by
    rw [String.toList_append, String.toList_append]⟩

theorem HeaderHolds.trim {value text : String} (h : HeaderHolds value text)
    (htext : ∀ c ∈ text.toList, Text.isBlank c = false) : Text.trim value.toList = text.toList := by
  obtain ⟨front, back, hfront, hback, heq⟩ := h
  rw [heq, Text.trim_append_blanks front _ back hfront hback, Text.trim_eq_self _ htext]

theorem Hex.forall_mem_digits {p : Char → Prop} (hdigit : ∀ n, n < 16 → p (Hex.digit n))
    (bytes : Bytes) : ∀ c ∈ Hex.digits bytes, p c := by
  induction bytes with
  | nil => simp [Hex.digits]
  | cons b rest ih =>
    have hb := b.toNat_lt
    intro c hc
    simp only [Hex.digits, List.mem_cons] at hc
    rcases hc with rfl | rfl | hc
    · exact hdigit _ (by omega)
    · exact hdigit _ (by omega)
    · exact ih c hc

theorem Hex.forall_mem_encode {p : Char → Prop} (hdigit : ∀ n, n < 16 → p (Hex.digit n))
    (bytes : Bytes) : ∀ c ∈ (Hex.encode bytes).toList, p c := by
  rw [Hex.encode, String.toList_ofList]
  exact Hex.forall_mem_digits hdigit bytes

theorem HeaderHolds.decode {value : String} {bytes : Bytes}
    (h : HeaderHolds value (Hex.encode bytes)) :
    Hex.decode (String.ofList (Text.trim value.toList)) = .ok bytes := by
  rw [h.trim (Hex.forall_mem_encode (by decide) bytes), String.ofList_toList, Hex.decode_encode]

theorem forall_mem_toString {p : Char → Prop} (hsign : p '-')
    (hdigit : ∀ c : Char, c.isDigit = true → p c) (i : Int) : ∀ c ∈ (toString i).toList, p c := by
  have hdigits : ∀ n, ∀ c ∈ Nat.toDigits 10 n, p c := fun n c hc =>
    hdigit c (isDigit_toDigits n c hc)
  rw [Text.toList_toString]
  split
  · exact List.forall_mem_cons.2 ⟨hsign, hdigits _⟩
  · exact hdigits _

/-! ## Certificates -/

theorem Role.keptOneOf_toJson (r : Role) : Decode.keptOneOf choices r.toJson = .ok r := by
  cases r <;> rfl

namespace CertificateBody

theorem kept_members (b : CertificateBody) : ∀ m ∈ b.members, IsKept "signature" m := by
  simp [members, IsKept, Role.toJson, isStorable_text]

variable (b : CertificateBody) (h : b.issuedAt.IsDated)
include h

theorem fits_members : List.Forall₂ Fits fields b.members :=
  .cons (fits_field _ _ _ _ (Decode.text_text b.serial)) <|
  .cons (fits_field _ _ _ _ (Decode.nodeId_toHex b.node)) <|
  .cons (fits_field _ _ _ _ (Decode.hexBytes_encode b.publicKey)) <|
  .cons (fits_field _ _ _ _ b.role.keptOneOf_toJson) <|
  .cons (fits_field _ _ _ _ (Decode.text_text b.name)) <|
  .cons (fits_field _ _ _ _ (Decode.moment_format b.issuedAt h)) <|
  .cons (fits_field _ _ _ _ (Decode.text_text b.issuer)) .nil

theorem ofValues_members : ofValues (valueOf b.members) = .ok b := by
  simp [ofValues, members, b.role.keptOneOf_toJson, Decode.moment_format b.issuedAt h, bind,
    Except.bind, pure, Except.pure]

end CertificateBody

namespace Certificate

theorem isPlain_toJson (c : Certificate) : c.toJson.isPlain = true := rfl

variable (c : Certificate) (h : c.body.issuedAt.IsDated)
include h

/-- The signature stands beside the members of the body, and is read first. -/
theorem decode_toJson : decode c.toJson = .ok c := by
  have hsignature := Decode.hexBytes_encode c.signature
  have hread := readBeside_ofFields (field "signature" Decode.hexBytes) CertificateBody.fields
    c.body.members (.text (Hex.encode c.signature)) (by simp [field, hsignature, Except.map])
    c.body.kept_members (c.body.fits_members h) (by decide)
  have hsplit : readBeside [field "signature" Decode.hexBytes] CertificateBody.fields c.toJson =
      .ok (valueOf [("signature", .text (Hex.encode c.signature))], valueOf c.body.members) := hread
  simp only [decode, hsplit, bind, Except.bind, valueOf_cons, if_true, hsignature,
    c.body.ofValues_members h]
  rfl

theorem ofBytes_toBytes : ofBytes c.toBytes = .ok c := by
  rw [ofBytes, toBytes, decodeBytes_write decode c.toJson c.isPlain_toJson, c.decode_toJson h]

theorem ofHeader_of_holds (value : String) (hvalue : HeaderHolds value c.toHeader) :
    ofHeader value = .ok c := by
  rw [ofHeader, hvalue.decode]
  exact c.ofBytes_toBytes h

end Certificate

/-! ## Proofs of requests -/

namespace RequestProof

theorem ofHeaders_of_holds (p : RequestProof) (timestamp signature : String)
    (htimestamp : HeaderHolds timestamp p.timestampHeader)
    (hsignature : HeaderHolds signature p.signatureHeader) :
    ofHeaders timestamp signature = .ok p := by
  have htrim := htimestamp.trim (forall_mem_toString (by decide) Moment.isBlank_of_isDigit _)
  have hparse : Text.parseInt64 (Text.trim timestamp.toList) = .ok p.timestamp := by
    rw [htrim]
    exact Text.parseInt64_toString p.timestamp
  simp only [ofHeaders, hparse, hsignature.decode, bind, Except.bind, pure, Except.pure]

/-- A proof that was made with the key of a seed passes just if it is close in time, and Ed25519
accepts its own signature. -/
theorem check_made (seed : Bytes) (method path : String) (timestamp : Int64) (now : Int) :
    check ⟨timestamp, Ed25519.sign seed (Message.request timestamp method path)⟩
        (Ed25519.publicKey seed) method path now = .ok () ↔
      (now - timestamp.toInt).natAbs ≤ maxRequestSkew ∧
        Ed25519.Accepts seed (Message.request timestamp method path) := by
  unfold check
  split
  · next hfar => simp [Nat.not_le.2 hfar]
  · next hclose =>
    rw [if_neg (not_not.2 (Ed25519.length_publicKey seed))]
    cases hverify : Ed25519.verify (Ed25519.publicKey seed) (Message.request timestamp method path)
        (Ed25519.sign seed (Message.request timestamp method path)) with
    | true =>
      have hkey := Ed25519.isPublicKey_of_verify _ _ _ hverify
      simp [hkey, Ed25519.length_sign, hverify, Ed25519.Accepts, Nat.not_lt.1 hclose]
    | false =>
      simp [Ed25519.length_sign, hverify, Ed25519.Accepts]
      split <;> simp

end RequestProof

theorem Bundle.signRequest_of_length (b : Bundle) (h : b.key.length = 32) (method path : String)
    (timestamp : Int64) : b.signRequest method path timestamp =
      .ok ⟨timestamp, Ed25519.sign b.key (Message.request timestamp method path)⟩ :=
  if_pos h

/-! ## Issued credentials -/

/-- Whatever is issued at a time that has a written form is read back from its bytes and from a
header, and passes the check of its issuer, if Ed25519 accepts what the issuer signed.  Each request
signed with the key is read back from its two headers, and passes the check of the certificate just
if the clock lies at most 300 seconds from its timestamp, if Ed25519 accepts what the key signed. -/
theorem Issuer.issued_survives_headers (issuer : Issuer) (node : NodeId) (role : Role)
    (name : String) (now : Moment) (blocks : Nat → Block) (taken : Nat) (hnow : now.IsDated) :
    let issued := issuer.issue node role name now ⟨fun i => (blocks i).bytes, taken⟩
    let c := issued.1.1
    let b := issued.1.2
    (c.body.node = node ∧ c.body.role = role ∧ c.body.name = name ∧ c.body.issuedAt = now ∧
        c.body.publicKey = Ed25519.publicKey b.key ∧ b.certificate = c.toBytes) ∧
      Certificate.ofBytes c.toBytes = .ok c ∧
      (∀ value, HeaderHolds value c.toHeader → Certificate.ofHeader value = .ok c) ∧
      (issuer.check c = .ok () ↔ Ed25519.Accepts issuer.seed c.body.signedBytes) ∧
      ∀ (method path : String) (timestamp : Int64), ∃ p : RequestProof,
        b.signRequest method path timestamp = .ok p ∧
        (∀ v w, HeaderHolds v p.timestampHeader → HeaderHolds w p.signatureHeader →
          RequestProof.ofHeaders v w = .ok p) ∧
        ∀ clock : Int, c.checkRequest method path p clock = .ok () ↔
          (clock - timestamp.toInt).natAbs ≤ 300 ∧
            Ed25519.Accepts b.key (Message.request timestamp method path) := by
  intro issued c b
  have hissued : IssuedBy issuer node role now c := issuedBy_issue issuer node role name now _
  have hdated : c.body.issuedAt.IsDated := hissued.issuedAt ▸ hnow
  have hkey : b.key.length = 32 := by
    have hblock : (blocks taken).bytes.length = 32 := (blocks taken).length_bytes
    show ((blocks taken).bytes.take 32).length = 32
    rw [List.length_take, hblock]
    rfl
  refine ⟨⟨rfl, rfl, rfl, rfl, rfl, rfl⟩, c.ofBytes_toBytes hdated, c.ofHeader_of_holds hdated,
    hissued.check_iff, fun method path timestamp => ?_⟩
  refine ⟨_, b.signRequest_of_length hkey method path timestamp,
    fun v w hv hw => RequestProof.ofHeaders_of_holds _ v w hv hw, fun clock => ?_⟩
  exact RequestProof.check_made b.key method path timestamp clock

/-- A process with quotes, a control character and letters beyond ASCII in its name signs a request
at the earliest timestamp of all. -/
theorem Issuer.quoted_name_survives_headers :
    let node : NodeId := ⟨List.replicate 32 7, by decide⟩
    let issuer : Issuer := ⟨List.replicate 32 1⟩
    let blocks : Nat → Block := fun i => ⟨List.replicate 32 (UInt8.ofNat i), List.length_replicate⟩
    let issued := issuer.issue node .node "a\"\\\n\x01é😀" ⟨5, 1⟩ ⟨fun i => (blocks i).bytes, 2⟩
    let c := issued.1.1
    (⟨5, 1⟩ : Moment).IsDated ∧ Certificate.ofHeader ("\t" ++ c.toHeader ++ " ") = .ok c ∧
      (issuer.check c = .ok () ↔ Ed25519.Accepts issuer.seed c.body.signedBytes) ∧
      ∃ p : RequestProof, issued.1.2.signRequest "GET" "/hsm" Int64.minValue = .ok p ∧
        RequestProof.ofHeaders ("\t" ++ p.timestampHeader ++ "") (" " ++ p.signatureHeader ++ "\n") =
          .ok p ∧
        ∀ clock : Int, c.checkRequest "GET" "/hsm" p clock = .ok () ↔
          (clock - Int64.minValue.toInt).natAbs ≤ 300 := by
  have haccepts : Ed25519.Accepts (List.replicate 32 2)
      (Message.request Int64.minValue "GET" "/hsm") := by
    unfold Ed25519.Accepts
    decide +kernel
  intro node issuer blocks issued c
  have hdated : (⟨5, 1⟩ : Moment).IsDated := ⟨by decide, by decide, Or.inl (by decide)⟩
  have hkey : issued.1.2.key = List.replicate 32 2 := rfl
  obtain ⟨-, -, hheader, hcheck, hrequests⟩ :=
    issuer.issued_survives_headers node .node "a\"\\\n\x01é😀" ⟨5, 1⟩ blocks 2 hdated
  obtain ⟨p, hsign, hread, hrequest⟩ := hrequests "GET" "/hsm" Int64.minValue
  refine ⟨hdated, hheader _ (headerHolds_append "\t" _ " " rfl rfl), hcheck, p, hsign,
    hread _ _ (headerHolds_append "\t" _ "" rfl rfl) (headerHolds_append " " _ "\n" rfl rfl),
    fun clock => (hrequest clock).trans (and_iff_left ?_)⟩
  show Ed25519.Accepts issued.1.2.key _
  rw [hkey]
  exact haccepts

end SigningGateway
