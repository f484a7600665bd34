import SigningGateway.Auth.Registration
import SigningGateway.Proofs.Json.Reading
import SigningGateway.Proofs.Json.Records

/-!
# Snapshots are read back

What a snapshot file holds is read back as the registrations that were written, every field of them
and in their order, provided that their times have a written form.  Only such registrations are ever
read.

    dated registrations → decode (snapshotBytes registrations) = .ok registrations
                                                                        (decodeBytes_snapshotBytes)
-/

namespace SigningGateway

open Json Json.Record

/-! ## Parts of a registration -/

theorem Role.decode_toJson (r : Role) : Role.decode r.toJson = .ok r := by
  cases r <;> rfl

theorem Metadata.decode_toJson (m : Metadata) : Metadata.decode m.toJson = .ok m := by
  have hemail : Decode.nullable Decode.text (.ofOption .text m.email) = .ok m.email :=
    Decode.nullable_ofOption _ _ _ (by rintro _ ⟨⟩) fun _ _ => rfl
  have hread : Record.read Metadata.fields m.toJson = .ok (valueOf m.members) := by
    apply read_ofFields _ _ _ (by decide)
    exact .cons (fits_field _ _ _ _ (Decode.hexBytes_encode _)) <|
      .cons (fits_optionalField _ _ _ _ hemail) <| .cons (fits_field _ _ _ _ rfl) .nil
  rw [Metadata.decode, hread]
  simp [Metadata.ofValues, Metadata.members, hemail, bind, Except.bind, pure, Except.pure]

namespace IssuedCertificate

theorem decode_toJson (c : IssuedCertificate) (h : c.issuedAt.IsDated) :
    decode c.toJson = .ok c := by
  have hmoment := Decode.moment_format c.issuedAt h
  have hread := read_ofFields fields _ (.cons (fits_field _ _ _ _ (Decode.text_text c.serial)) <|
    .cons (fits_field _ _ _ _ (Decode.text_text c.name)) <|
    .cons (fits_field _ _ _ _ c.role.decode_toJson) <|
    .cons (fits_field _ _ _ _ hmoment) .nil) (by decide)
  rw [decode, toJson, hread]
  simp [Role.decode_toJson, hmoment, bind, Except.bind, pure, Except.pure]

end IssuedCertificate

/-! ## Registrations -/

namespace Registration

/-- The times of a registration have a written form. -/
structure IsDated (r : Registration) : Prop where
  registeredAt : r.registeredAt.IsDated
  certificates : ∀ c ∈ r.certificates, c.issuedAt.IsDated
  nodeCertificate : ∀ c, r.nodeCertificate = some c → c.issuedAt.IsDated

theorem decode_toJson (r : Registration) (h : r.IsDated) : decode r.toJson = .ok r := by
  have hmoment := Decode.moment_format r.registeredAt h.registeredAt
  have hlist := Decode.list_map IssuedCertificate.decode IssuedCertificate.toJson r.certificates
    fun c hc => c.decode_toJson (h.certificates c hc)
  have hnullable := Decode.nullable_ofOption IssuedCertificate.decode IssuedCertificate.toJson
    r.nodeCertificate (by rintro _ ⟨⟩) fun c hc => c.decode_toJson (h.nodeCertificate c hc)
  have hread := read_ofFields fields _
    (.cons (fits_field _ _ _ _ (Decode.nodeId_toHex r.node)) <|
    .cons (fits_field _ _ _ _ r.metadata.decode_toJson) <|
    .cons (fits_field _ _ _ _ hmoment) <| .cons (fits_field _ _ _ _ hlist) <|
    .cons (fits_defaultedField _ _ _ _ hnullable) .nil) (by decide)
  rw [decode, toJson, hread]
  simp [Metadata.decode_toJson, hmoment, hlist, hnullable, bind, Except.bind, pure, Except.pure]

end Registration

/-! ## Snapshots -/

theorem decodeSnapshot_snapshotJson (registrations : List Registration)
    (h : ∀ r ∈ registrations, r.IsDated) :
    decodeSnapshot (snapshotJson registrations) = .ok registrations := by
  have hlist := Decode.list_map Registration.decode Registration.toJson registrations
    fun r hr => r.decode_toJson (h r hr)
  have hread := read_ofFields [field "registrations" (Decode.list Registration.decode)] _
    (.cons (fits_field _ _ _ _ hlist) .nil) (by decide)
  rw [decodeSnapshot, snapshotJson]
  simp [hread, hlist, bind, Except.bind]

theorem allPlain_map {α : Type} (write : α → Json) (values : List α)
    (h : ∀ a, (write a).isPlain = true) : allPlain (values.map write) = true := by
  induction values with
  | nil => rfl
  | cons a values ih => rw [List.map_cons, allPlain, h a, ih]; rfl

theorem isPlain_ofOption {α : Type} (write : α → Json) (value : Option α)
    (h : ∀ a, (write a).isPlain = true) : (Json.ofOption write value).isPlain = true := by
  cases value with
  | none => rfl
  | some a => exact h a

theorem isPlain_snapshotJson (registrations : List Registration) :
    (snapshotJson registrations).isPlain = true := by
  have hcertificate : ∀ c : IssuedCertificate, c.toJson.isPlain = true := fun _ => rfl
  have hmetadata : ∀ m : Metadata, m.toJson.isPlain = true := by
    intro m
    have hemail := isPlain_ofOption Json.text m.email fun _ => rfl
    simp [Metadata.toJson, Metadata.members, ofFields, isPlain, membersPlain, text, hemail]
  have hregistration : ∀ r : Registration, r.toJson.isPlain = true := by
    intro r
    have hlist := allPlain_map IssuedCertificate.toJson r.certificates hcertificate
    have hnode := isPlain_ofOption IssuedCertificate.toJson r.nodeCertificate hcertificate
    simp [Registration.toJson, ofFields, isPlain, membersPlain, text, hmetadata, hlist, hnode]
  have hlist := allPlain_map Registration.toJson registrations hregistration
  simp [snapshotJson, ofFields, isPlain, membersPlain, hlist]

/-- What a snapshot file holds is read back. -/
theorem decodeBytes_snapshotBytes (registrations : List Registration)
    (h : ∀ r ∈ registrations, r.IsDated) :
    decodeBytes decodeSnapshot (snapshotBytes registrations) = .ok registrations := by
  rw [decodeBytes, snapshotBytes, Document.ofBytes_encode,
    ofChars_writePretty _ (isPlain_snapshotJson registrations), Document.decode,
    decodeSnapshot_snapshotJson registrations h]
  rfl

/-! ## What can be read -/

theorem IssuedCertificate.isDated_decode (v : Json) (c : IssuedCertificate)
    (h : decode v = .ok c) : c.issuedAt.IsDated := by
  obtain ⟨_, -, h⟩ := (bind_eq_ok _ _ _).1 h
  obtain ⟨_, -, h⟩ := (bind_eq_ok _ _ _).1 h
  obtain ⟨_, -, h⟩ := (bind_eq_ok _ _ _).1 h
  obtain ⟨_, -, h⟩ := (bind_eq_ok _ _ _).1 h
  obtain ⟨issuedAt, hmoment, h⟩ := (bind_eq_ok _ _ _).1 h
  obtain rfl := Except.ok.inj h
  exact Decode.isDated_moment _ issuedAt hmoment

theorem Registration.isDated_decode (v : Json) (r : Registration) (h : decode v = .ok r) :
    r.IsDated := by
  obtain ⟨_, -, h⟩ := (bind_eq_ok _ _ _).1 h
  obtain ⟨_, -, h⟩ := (bind_eq_ok _ _ _).1 h
  obtain ⟨_, -, h⟩ := (bind_eq_ok _ _ _).1 h
  obtain ⟨registeredAt, hmoment, h⟩ := (bind_eq_ok _ _ _).1 h
  obtain ⟨certificates, hlist, h⟩ := (bind_eq_ok _ _ _).1 h
  obtain ⟨nodeCertificate, hnullable, h⟩ := (bind_eq_ok _ _ _).1 h
  obtain rfl := Except.ok.inj h
  exact ⟨Decode.isDated_moment _ _ hmoment,
    Decode.forall_list _ _ IssuedCertificate.isDated_decode _ _ hlist,
    Decode.forall_nullable _ _ IssuedCertificate.isDated_decode _ _ hnullable⟩

/-- Only registrations whose times have a written form are read. -/
theorem isDated_decodeSnapshot (v : Json) (registrations : List Registration)
    (h : decodeSnapshot v = .ok registrations) : ∀ r ∈ registrations, r.IsDated := by
  obtain ⟨_, -, h⟩ := (bind_eq_ok _ _ _).1 h
  exact Decode.forall_list _ _ Registration.isDated_decode _ _ h

end SigningGateway
