import SigningGateway.Auth.Challenge
import SigningGateway.Auth.Message

/-!
# What a signature covers

The purposes tell each other apart within their first eleven bytes, so no byte string is a message
of two purposes.  Behind its purpose a message is read back field by field: a challenge, a node and a
timestamp take a fixed number of bytes, and every other field says how many it takes.  One thing is
not told: whether an e-mail is missing or empty.

    a.purpose ≠ b.purpose → a.bytes ≠ b.bytes                                 (purpose_eq_of_bytes)
    a.bytes = b.bytes ↔ a.covered = b.covered                                       (bytes_eq_iff)
    a.digest = b.digest → a.bytes = b.bytes ∨ Collision a.bytes b.bytes      (bytes_eq_or_collision)
-/

namespace SigningGateway

/-! ## Fields -/

namespace Bytes

/-- Whether the number of bytes fits into the four bytes in front of a field. -/
def IsShort (bytes : Bytes) : Prop := bytes.length < UInt32.size

instance (bytes : Bytes) : Decidable bytes.IsShort :=
  inferInstanceAs (Decidable (bytes.length < UInt32.size))

theorem ofText_inj {s t : String} : ofText s = ofText t ↔ s = t := by
  constructor
  · intro h
    have hread : Utf8.decode? (ofText s) = Utf8.decode? (ofText t) := congrArg Utf8.decode? h
    rw [ofText, ofText, Utf8.decode?_encode, Utf8.decode?_encode, Option.some.injEq] at hread
    exact String.toList_inj.1 hread
  · rintro rfl
    rfl

theorem bigEndian_inj {width m n : Nat} (hm : m < Nat.pow 256 width) (hn : n < Nat.pow 256 width) :
    bigEndian width m = bigEndian width n ↔ m = n := by
  constructor
  · intro h
    have hread : ofBigEndian (bigEndian width m) = ofBigEndian (bigEndian width n) :=
      congrArg ofBigEndian h
    rwa [ofBigEndian_bigEndian, ofBigEndian_bigEndian, Nat.mod_eq_of_lt hm,
      Nat.mod_eq_of_lt hn] at hread
  · rintro rfl
    rfl

/-- A field with its length in front is told from what follows it. -/
theorem lengthPrefixed_append_inj {field field' rest rest' : Bytes} (hshort : field.IsShort)
    (hshort' : field'.IsShort) :
    lengthPrefixed field ++ rest = lengthPrefixed field' ++ rest' ↔
      field = field' ∧ rest = rest' := by
  constructor
  · intro h
    rw [lengthPrefixed, lengthPrefixed, List.append_assoc, List.append_assoc] at h
    obtain ⟨hlength, hfields⟩ := List.append_inj h (by simp)
    rw [bigEndian_inj hshort hshort'] at hlength
    exact List.append_inj hfields hlength
  · rintro ⟨rfl, rfl⟩
    rfl

theorem lengthPrefixed_inj {field field' : Bytes} (hshort : field.IsShort)
    (hshort' : field'.IsShort) : lengthPrefixed field = lengthPrefixed field' ↔ field = field' := by
  have h : lengthPrefixed field ++ [] = lengthPrefixed field' ++ [] ↔ field = field' ∧ [] = [] :=
    lengthPrefixed_append_inj hshort hshort'
  simpa using h

end Bytes

namespace Metadata

/-- Whether every field fits into a message. -/
structure IsShort (m : Metadata) : Prop where
  bip32Key : m.bip32Key.IsShort
  email : (Bytes.ofText (m.email.getD "")).IsShort
  network : (Bytes.ofText m.network).IsShort

/-- What a signature covers of metadata: an e-mail that is missing counts as an empty one. -/
def covered (m : Metadata) : Metadata := { m with email := some (m.email.getD "") }

/-- Metadata of which the same is covered is equal, or differs in an e-mail that is missing here and
empty there. -/
theorem covered_eq_iff (m₁ m₂ : Metadata) :
    m₁.covered = m₂.covered ↔
      m₁ = m₂ ∨
        m₁.bip32Key = m₂.bip32Key ∧ m₁.network = m₂.network ∧
          (m₁.email = none ∧ m₂.email = some "" ∨ m₁.email = some "" ∧ m₂.email = none) := by
  obtain ⟨key₁, email₁, network₁⟩ := m₁
  obtain ⟨key₂, email₂, network₂⟩ := m₂
  have hfields : Metadata.covered ⟨key₁, email₁, network₁⟩ = .covered ⟨key₂, email₂, network₂⟩ ↔
      key₁ = key₂ ∧ email₁.getD "" = email₂.getD "" ∧ network₁ = network₂ := by
    simp [covered]
  have hemail : email₁.getD "" = email₂.getD "" ↔
      email₁ = email₂ ∨ email₁ = none ∧ email₂ = some "" ∨ email₁ = some "" ∧ email₂ = none := by
    cases email₁ <;> cases email₂ <;> simp [eq_comm]
  rw [hfields, hemail, Metadata.mk.injEq]
  constructor
  · rintro ⟨hkey, heq | hblank, hnetwork⟩
    · exact Or.inl ⟨hkey, heq, hnetwork⟩
    · exact Or.inr ⟨hkey, hnetwork, hblank⟩
  · rintro (⟨hkey, heq, hnetwork⟩ | ⟨hkey, hnetwork, hblank⟩)
    · exact ⟨hkey, Or.inl heq, hnetwork⟩
    · exact ⟨hkey, Or.inr hblank, hnetwork⟩

end Metadata

/-! ## Messages -/

namespace Message

inductive Purpose
  | registration
  | recovery
  | request
  deriving DecidableEq

/-- The first bytes of a message of a purpose. -/
def Purpose.mark : Purpose → Bytes
  | .registration => registerPurpose
  | .recovery => recoverPurpose
  | .request => requestPurpose

/-- A message that is signed, with its fields. -/
inductive Content
  | registration (challenge : Bytes) (metadata : Metadata)
  | recovery (challenge : Bytes) (node : NodeId)
  | request (timestamp : Int64) (method path : String)

/-- Two byte strings that differ and have one digest. -/
def Collision (a b : Bytes) : Prop := a ≠ b ∧ sha256 a = sha256 b

namespace Content

def purpose : Content → Purpose
  | registration .. => .registration
  | recovery .. => .recovery
  | request .. => .request

def bytes : Content → Bytes
  | registration challenge metadata => registrationBytes challenge metadata
  | recovery challenge node => recoveryBytes challenge node
  | request timestamp method path => requestBytes timestamp method path

def digest : Content → Bytes
  | registration challenge metadata => Message.registration challenge metadata
  | recovery challenge node => Message.recovery challenge node
  | request timestamp method path => Message.request timestamp method path

/-- Whether a challenge has its size, and every other field fits. -/
def IsSized : Content → Prop
  | registration challenge metadata => challenge.length = challengeSize ∧ metadata.IsShort
  | recovery challenge _ => challenge.length = challengeSize
  | request _ method path => (Bytes.ofText method).IsShort ∧ (Bytes.ofText path).IsShort

/-- What a signature covers of a message. -/
def covered : Content → Content
  | registration challenge metadata => registration challenge metadata.covered
  | content => content

end Content

/-! ## One purpose -/

theorem registrationBytes_inj {c₁ c₂ : Bytes} {m₁ m₂ : Metadata} (hc₁ : c₁.length = challengeSize)
    (hc₂ : c₂.length = challengeSize) (hm₁ : m₁.IsShort) (hm₂ : m₂.IsShort) :
    registrationBytes c₁ m₁ = registrationBytes c₂ m₂ ↔ c₁ = c₂ ∧ m₁.covered = m₂.covered := by
  constructor
  · intro h
    simp only [registrationBytes, List.append_assoc, List.append_right_inj] at h
    obtain ⟨hchallenge, hfields⟩ := List.append_inj h (hc₁.trans hc₂.symm)
    obtain ⟨hkey, hfields⟩ := (Bytes.lengthPrefixed_append_inj hm₁.bip32Key hm₂.bip32Key).1 hfields
    obtain ⟨hemail, hnetwork⟩ := (Bytes.lengthPrefixed_append_inj hm₁.email hm₂.email).1 hfields
    rw [Bytes.lengthPrefixed_inj hm₁.network hm₂.network, Bytes.ofText_inj] at hnetwork
    refine ⟨hchallenge, ?_⟩
    rw [Metadata.covered, Metadata.covered, hkey, Bytes.ofText_inj.1 hemail, hnetwork]
  · rintro ⟨rfl, hm⟩
    obtain ⟨hkey, hemail, hnetwork⟩ := Metadata.mk.inj hm
    rw [registrationBytes, registrationBytes, hkey, Option.some.inj hemail, hnetwork]

theorem recoveryBytes_inj {c₁ c₂ : Bytes} {n₁ n₂ : NodeId} (hc₁ : c₁.length = challengeSize)
    (hc₂ : c₂.length = challengeSize) :
    recoveryBytes c₁ n₁ = recoveryBytes c₂ n₂ ↔ c₁ = c₂ ∧ n₁ = n₂ := by
  constructor
  · intro h
    simp only [recoveryBytes, List.append_assoc, List.append_right_inj] at h
    obtain ⟨hchallenge, hnode⟩ := List.append_inj h (hc₁.trans hc₂.symm)
    refine ⟨hchallenge, ?_⟩
    rw [NodeId.mk.injEq]
    exact hnode
  · rintro ⟨rfl, rfl⟩
    rfl

theorem timestampBytes_inj {t₁ t₂ : Int64} : timestampBytes t₁ = timestampBytes t₂ ↔ t₁ = t₂ := by
  rw [timestampBytes, timestampBytes, Bytes.bigEndian_inj t₁.toUInt64.toNat_lt_size
    t₂.toUInt64.toNat_lt_size, UInt64.toNat_inj]
  constructor
  · intro h
    rw [← Int64.toInt64_toUInt64 t₁, ← Int64.toInt64_toUInt64 t₂, h]
  · rintro rfl
    rfl

theorem requestBytes_inj {t₁ t₂ : Int64} {method₁ method₂ path₁ path₂ : String}
    (hmethod₁ : (Bytes.ofText method₁).IsShort) (hmethod₂ : (Bytes.ofText method₂).IsShort)
    (hpath₁ : (Bytes.ofText path₁).IsShort) (hpath₂ : (Bytes.ofText path₂).IsShort) :
    requestBytes t₁ method₁ path₁ = requestBytes t₂ method₂ path₂ ↔
      t₁ = t₂ ∧ method₁ = method₂ ∧ path₁ = path₂ := by
  constructor
  · intro h
    simp only [requestBytes, List.append_assoc, List.append_right_inj] at h
    obtain ⟨htime, hfields⟩ := List.append_inj h (by simp [timestampBytes])
    obtain ⟨hmethod, hpath⟩ := (Bytes.lengthPrefixed_append_inj hmethod₁ hmethod₂).1 hfields
    rw [Bytes.lengthPrefixed_inj hpath₁ hpath₂, Bytes.ofText_inj] at hpath
    exact ⟨timestampBytes_inj.1 htime, Bytes.ofText_inj.1 hmethod, hpath⟩
  · rintro ⟨rfl, rfl, rfl⟩
    rfl

/-! ## Any two purposes -/

/-- Two byte strings of one digest are equal or collide. -/
theorem eq_or_collision {a b : Bytes} (h : sha256 a = sha256 b) : a = b ∨ Collision a b := by
  by_cases hab : a = b
  · exact Or.inl hab
  · exact Or.inr ⟨hab, h⟩

/-- The first eleven bytes of a message tell its purpose. -/
theorem take_mark_inj {p q : Purpose} (h : p.mark.take 11 = q.mark.take 11) : p = q := by
  revert h
  cases p <;> cases q <;> decide

namespace Content

@[simp] theorem purpose_covered (a : Content) : a.covered.purpose = a.purpose := by
  cases a <;> rfl

theorem digest_eq (a : Content) : a.digest = sha256 a.bytes := by
  cases a <;> rfl

theorem mark_prefix (a : Content) : a.purpose.mark <+: a.bytes := by
  cases a with
  | registration challenge metadata =>
    simp only [bytes, registrationBytes, List.append_assoc]
    exact List.prefix_append _ _
  | recovery challenge node =>
    simp only [bytes, recoveryBytes, List.append_assoc]
    exact List.prefix_append _ _
  | request timestamp method path =>
    simp only [bytes, requestBytes, List.append_assoc]
    exact List.prefix_append _ _

theorem take_bytes (a : Content) : a.bytes.take 11 = a.purpose.mark.take 11 := by
  obtain ⟨fields, hfields⟩ := a.mark_prefix
  have hlength : 11 ≤ a.purpose.mark.length := by
    cases a.purpose <;> decide
  rw [← hfields, List.take_append_of_le_length hlength]

/-- The bytes of a message tell its purpose. -/
theorem purpose_eq_of_bytes {a b : Content} (h : a.bytes = b.bytes) : a.purpose = b.purpose := by
  apply take_mark_inj
  rw [← take_bytes, ← take_bytes, h]

/-- The bytes of a message tell all that a signature covers. -/
theorem bytes_eq_iff {a b : Content} (ha : a.IsSized) (hb : b.IsSized) :
    a.bytes = b.bytes ↔ a.covered = b.covered := by
  by_cases hpurpose : a.purpose = b.purpose
  · cases a with
    | registration c₁ m₁ =>
      cases b with
      | registration c₂ m₂ =>
        simpa [bytes, covered] using registrationBytes_inj ha.1 hb.1 ha.2 hb.2
      | _ => cases hpurpose
    | recovery c₁ n₁ =>
      cases b with
      | recovery c₂ n₂ => simpa [bytes, covered] using recoveryBytes_inj ha hb
      | _ => cases hpurpose
    | request t₁ method₁ path₁ =>
      cases b with
      | request t₂ method₂ path₂ =>
        simpa [bytes, covered] using requestBytes_inj ha.1 hb.1 ha.2 hb.2
      | _ => cases hpurpose
  · constructor
    · exact fun h => absurd (purpose_eq_of_bytes h) hpurpose
    · exact fun h => absurd (by simpa using congrArg purpose h) hpurpose

end Content

/-! ## What signatures tell apart -/

/-- A registration covers its challenge and its metadata, but for one thing: an e-mail that is
missing is signed as an empty one. -/
theorem registrationBytes_eq_iff (c₁ c₂ : Bytes) (m₁ m₂ : Metadata)
    (hc₁ : c₁.length = challengeSize) (hc₂ : c₂.length = challengeSize) (hm₁ : m₁.IsShort)
    (hm₂ : m₂.IsShort) :
    registrationBytes c₁ m₁ = registrationBytes c₂ m₂ ↔
      c₁ = c₂ ∧
        (m₁ = m₂ ∨
          m₁.bip32Key = m₂.bip32Key ∧ m₁.network = m₂.network ∧
            (m₁.email = none ∧ m₂.email = some "" ∨ m₁.email = some "" ∧ m₂.email = none)) := by
  rw [registrationBytes_inj hc₁ hc₂ hm₁ hm₂, Metadata.covered_eq_iff]

/-- Letters that move from one field to the next are noticed. -/
theorem registrationBytes_of_moved_letters :
    let challenge : Bytes := List.replicate 32 9
    let m₁ : Metadata := ⟨[4], some "ab", "cd"⟩
    let m₂ : Metadata := ⟨[4], some "abc", "d"⟩
    challenge.length = challengeSize ∧ m₁.IsShort ∧ m₂.IsShort ∧
      registrationBytes challenge m₁ ≠ registrationBytes challenge m₂ := by
  intro challenge m₁ m₂
  have hm₁ : m₁.IsShort := ⟨by decide, by decide, by decide⟩
  have hm₂ : m₂.IsShort := ⟨by decide, by decide, by decide⟩
  refine ⟨rfl, hm₁, hm₂, fun h => ?_⟩
  have hcovered := (registrationBytes_eq_iff challenge challenge m₁ m₂ rfl rfl hm₁ hm₂).1 h
  exact absurd hcovered.2 (by decide)

/-- Whether an e-mail is missing or empty is kept with the registration, and not signed. -/
theorem registrationBytes_of_missing_email :
    let challenge : Bytes := List.replicate 32 9
    let missing : Metadata := ⟨[4, 136, 178, 30], none, "bitcoin"⟩
    let blank : Metadata := ⟨[4, 136, 178, 30], some "", "bitcoin"⟩
    challenge.length = challengeSize ∧ missing.IsShort ∧ blank.IsShort ∧
      registrationBytes challenge missing = registrationBytes challenge blank ∧
      missing ≠ blank := by
  intro challenge missing blank
  exact ⟨rfl, ⟨by decide, by decide, by decide⟩, ⟨by decide, by decide, by decide⟩, rfl,
    by decide⟩

/-- Messages of two purposes differ, whatever their fields; of two requests that differ in their
time, method or path the messages differ, and of two recoveries that differ in their challenge or
node.  So a digest that was signed is the digest of one purpose and of one value of every field, up
to collisions. -/
theorem signed_messages_apart :
    (∀ a b : Content, a.purpose ≠ b.purpose → a.bytes ≠ b.bytes) ∧
    (∀ (t₁ t₂ : Int64) (method₁ method₂ path₁ path₂ : String),
      (Bytes.ofText method₁).IsShort → (Bytes.ofText method₂).IsShort →
      (Bytes.ofText path₁).IsShort → (Bytes.ofText path₂).IsShort →
      (requestBytes t₁ method₁ path₁ = requestBytes t₂ method₂ path₂ ↔
        t₁ = t₂ ∧ method₁ = method₂ ∧ path₁ = path₂)) ∧
    (∀ (c₁ c₂ : Bytes) (n₁ n₂ : NodeId), c₁.length = challengeSize → c₂.length = challengeSize →
      (recoveryBytes c₁ n₁ = recoveryBytes c₂ n₂ ↔ c₁ = c₂ ∧ n₁ = n₂)) ∧
    ∀ a b : Content, a.digest = b.digest →
      a.purpose = b.purpose ∧ (a.IsSized → b.IsSized → a.covered = b.covered) ∨
        Collision a.bytes b.bytes := by
  refine ⟨?_, ?_, ?_, ?_⟩
  · exact fun a b hpurpose h => hpurpose (Content.purpose_eq_of_bytes h)
  · exact fun t₁ t₂ method₁ method₂ path₁ path₂ h₁ h₂ h₃ h₄ => requestBytes_inj h₁ h₂ h₃ h₄
  · exact fun c₁ c₂ n₁ n₂ hc₁ hc₂ => recoveryBytes_inj hc₁ hc₂
  · intro a b hdigest
    rw [Content.digest_eq, Content.digest_eq] at hdigest
    rcases eq_or_collision hdigest with hbytes | hcollision
    · exact Or.inl ⟨Content.purpose_eq_of_bytes hbytes,
        fun ha hb => (Content.bytes_eq_iff ha hb).1 hbytes⟩
    · exact Or.inr hcollision

/-- A challenge that looks like the fields of a request makes no request of a recovery, and letters
that move from the method to the path are noticed. -/
theorem recovery_apart_from_request :
    let node : NodeId := ⟨List.replicate 32 7, rfl⟩
    let fields : Bytes := timestampBytes 0 ++ Bytes.lengthPrefixed (Bytes.ofText "GET")
    (Content.recovery fields node).bytes ≠ (Content.request 0 "GET" "").bytes ∧
      requestBytes 0 "GET" "/v1" ≠ requestBytes 0 "GET/" "v1" := by
  intro node fields
  obtain ⟨hpurposes, hrequests, -, -⟩ := signed_messages_apart
  refine ⟨hpurposes _ _ (by decide), fun h => ?_⟩
  have hfields := (hrequests 0 0 "GET" "GET/" "/v1" "v1" (by decide) (by decide) (by decide)
    (by decide)).1 h
  exact absurd hfields (by decide)

end Message

end SigningGateway
