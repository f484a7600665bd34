import SigningGateway.Proofs.Auth.Current

/-!
# Which certificates are accepted

Whatever happens to a store that starts without registrations: its registrations hold the current
certificates and no others.  So a certificate of its issuer is accepted, with a valid proof, just if
it is current.  A certificate that was minted but never returned is of no use to anybody.

    Faithful issuer s → Faithful issuer (run s ops)                                  (faithful_run)
-/

namespace SigningGateway

/-! ## Registrations that hold certificates -/

/-- A registration holds the given certificates and no others. -/
structure Holds (current : Option Registration) (devices : Option (List Certificate))
    (process : Option Certificate) : Prop where
  devices : current.map (·.certificates) = devices.map (List.map .ofCertificate)
  process : current.bind (·.nodeCertificate) = process.map .ofCertificate

theorem Holds.holds_iff {current : Option Registration} {devices : Option (List Certificate)}
    {process : Option Certificate} (h : Holds current devices process) (role : Role)
    (serial : String) :
    (∃ r, current = some r ∧ r.holds role serial = true) ↔ match role with
      | .device => ∃ cs, devices = some cs ∧ ∃ c ∈ cs, c.body.serial = serial
      | .node => ∃ c, process = some c ∧ c.body.serial = serial := by
  obtain ⟨hdevices, hprocess⟩ := h
  cases role with
  | device =>
    cases current with
    | none => cases devices <;> simp_all
    | some r =>
      cases devices with
      | none => cases hdevices
      | some cs =>
        have hcs : r.certificates = cs.map .ofCertificate := Option.some.inj hdevices
        simp [Registration.holds, hcs, IssuedCertificate.ofCertificate]
  | node =>
    cases current with
    | none => cases process <;> simp_all
    | some r =>
      have hc : r.nodeCertificate = process.map .ofCertificate := hprocess
      cases process <;> simp [Registration.holds, hc, IssuedCertificate.ofCertificate]

namespace StoreOp

/-- The credential that an operation of the store records. -/
def credential (issuer : Issuer) : StoreOp → Credential
  | .register _ node _ c => ⟨.registration, node, c⟩
  | .recover node c => ⟨.recovery, node, c⟩
  | .issueNode now node e => ⟨.process, node, (issuer.issue node .node "node" now e).1.1⟩

@[simp] theorem node_credential (issuer : Issuer) (op : StoreOp) :
    (op.credential issuer).node = op.node := by
  cases op <;> rfl

/-- A changed registration holds the credential that the operation records. -/
theorem holds_change (issuer : Issuer) (op : StoreOp) (current : Option Registration)
    (r : Registration) (devices : Option (List Certificate)) (process : Option Certificate)
    (h : Holds current devices process) (hr : op.change issuer current = .ok r) :
    Holds (some r) (keepDevices op.node devices (op.credential issuer))
      (keepProcess op.node process (op.credential issuer)) := by
  obtain ⟨hdevices, hprocess⟩ := h
  cases op with
  | register now n metadata c =>
    obtain rfl := Except.ok.inj hr
    refine ⟨?_, by simpa [keepProcess, credential] using hprocess⟩
    simp [keepDevices, credential, node]
  | recover n c =>
    cases current with
    | none => cases hr
    | some r₀ =>
      obtain rfl := Except.ok.inj hr
      obtain ⟨cs, rfl, hcs⟩ := Option.map_eq_some_iff.1 hdevices.symm
      refine ⟨?_, by simpa [keepProcess, credential] using hprocess⟩
      simp [keepDevices, credential, node, ← hcs]
  | issueNode now n e =>
    cases current with
    | none => cases hr
    | some r₀ =>
      obtain rfl := Except.ok.inj hr
      refine ⟨by simpa [keepDevices, credential, node] using hdevices, ?_⟩
      simp [keepProcess, credential, node]

end StoreOp

namespace Store

/-- The registrations hold the current certificates of what was returned, and no others. -/
def Reflects (s : Store) (returned : List Credential) : Prop :=
  ∀ node, Holds (s.registration node) (currentDevices returned node) (currentProcess returned node)

/-- The store keeps nothing, or is kept. -/
def Lasts (s : Store) : Prop := s.disk = none ∨ s.Kept

variable {s s' : Store} {op : StoreOp} {fault : Option WriteFault}

/-- An operation that succeeds records its credential. -/
theorem Reflects.apply {returned : List Credential} (h : s.Reflects returned)
    (happly : op.apply s fault = .ok s') :
    s'.Reflects (returned ++ [op.credential s.issuer]) := by
  rw [StoreOp.apply_eq] at happly
  obtain ⟨r, hr, -, hget⟩ := registration_commit _ _ _ _ _ happly
  intro node
  rw [hget, currentDevices_append, currentProcess_append]
  by_cases hnode : node = op.node
  · subst hnode
    rw [if_pos rfl]
    exact op.holds_change _ _ r _ _ (h op.node) hr
  · have hother : ¬op.node = node := fun heq => hnode heq.symm
    rw [if_neg hnode, keepDevices, keepProcess, StoreOp.node_credential, if_neg hother,
      if_neg fun heq => hother heq.1]
    exact h node

theorem Lasts.apply (h : s.Lasts) (hop : op.IsDated) (happly : op.apply s fault = .ok s') :
    s'.Lasts := by
  rcases h with hnone | hkept
  · rw [StoreOp.apply_eq] at happly
    obtain ⟨-, -, -, -, ⟨-, hnone'⟩ | ⟨d, -, hd, -⟩⟩ := commit_cases _ _ _ _ _ happly
    · exact Or.inl hnone'
    · rw [hnone] at hd
      cases hd
  · exact Or.inr (hkept.apply hop happly)

/-- The checks that a certificate and its proof have to pass. -/
theorem authenticate_ok_iff (s : Store) (now : Moment) (c : Certificate) (method path : String)
    (proof : RequestProof) (a : AuthenticatedNode) :
    s.authenticate now c method path proof = .ok a ↔
      a = ⟨c.body.node, c.body.serial, c.body.role⟩ ∧ s.issuer.check c = .ok () ∧
        c.checkRequest method path proof now.seconds = .ok () ∧
        ∃ r, s.registration c.body.node = some r ∧ r.holds c.body.role c.body.serial = true := by
  unfold authenticate
  cases hcheck : s.issuer.check c with
  | error cause => simp [bind, Except.bind]
  | ok _ =>
    cases hproof : c.checkRequest method path proof now.seconds with
    | error cause => simp [bind, Except.bind]
    | ok _ =>
      cases hget : s.registration c.body.node with
      | none => simp [bind, Except.bind, throw, throwThe, MonadExceptOf.throw]
      | some r =>
        cases hholds : r.holds c.body.role c.body.serial with
        | true =>
          simp only [bind, Except.bind, hholds, pure, Except.pure, if_true, Except.ok.injEq,
            Option.some.injEq, exists_eq_left', and_true]
          exact eq_comm
        | false =>
          simp [bind, Except.bind, throw, throwThe, MonadExceptOf.throw, hholds]

end Store

/-- A certificate of an issuer passes its check just if its signature verifies. -/
theorem IssuedBy.check_iff {issuer : Issuer} {node : NodeId} {role : Role} {now : Moment}
    {c : Certificate} (h : IssuedBy issuer node role now c) :
    issuer.check c = .ok () ↔
      Ed25519.verify issuer.publicKey c.body.signedBytes c.signature = true := by
  have hlength : c.signature.length = 64 := by
    rw [h.signed]
    simp [Issuer.sign, Ed25519.sign, Ed25519.Point.compress]
  rw [Issuer.check, if_neg (not_not.2 h.issuer), if_neg (not_not.2 hlength)]
  split <;> simp_all

/-! ## What a run keeps true -/

/-- The operation of the store that records a call. -/
def Call.storeOp (now : Moment) (node : NodeId) (c : Certificate) : Call → StoreOp
  | .register metadata => .register now node metadata c
  | .recover => .recover node c

@[simp] theorem Call.credential_storeOp (issuer : Issuer) (call : Call) (now : Moment)
    (node : NodeId) (c : Certificate) :
    (call.storeOp now node c).credential issuer = ⟨call.kind, node, c⟩ := by
  cases call <;> rfl

/-- The certificate was minted, for the node and the role of the credential. -/
structure Credential.IsMinted (minted : List Certificate) (x : Credential) : Prop where
  mem : x.certificate ∈ minted
  holder : x.certificate.body.node = x.node
  role : x.certificate.body.role = x.kind.role

theorem Credential.IsMinted.mono {minted minted' : List Certificate} {x : Credential}
    (h : x.IsMinted minted) (hsubset : minted ⊆ minted') : x.IsMinted minted' :=
  ⟨hsubset h.mem, h.holder, h.role⟩

namespace CredentialRun

/-- The serial numbers that were drawn for certificates. -/
def serials (s : CredentialRun) : List String := s.minted.map fun c => c.body.serial

/-- A call under way: its certificate is made out to the node, and nobody was given it yet. -/
structure IsOpen (s : CredentialRun) (node : NodeId) (o : OpenCall) : Prop where
  admitted : o.admission.node = node
  metadata : o.admission.metadata = o.call.metadata
  bundle : o.admission.bundle.certificate = o.admission.certificate.toBytes
  minted : Credential.IsMinted s.minted ⟨o.call.kind, node, o.admission.certificate⟩
  unreturned : ∀ x ∈ s.returned, x.certificate ≠ o.admission.certificate

theorem IsOpen.mono {s s' : CredentialRun} {node : NodeId} {o : OpenCall} (h : s.IsOpen node o)
    (hminted : s.minted ⊆ s'.minted)
    (hreturned : ∀ x ∈ s'.returned, x ∈ s.returned ∨ x.certificate ≠ o.admission.certificate) :
    s'.IsOpen node o := by
  refine ⟨h.admitted, h.metadata, h.bundle, h.minted.mono hminted, fun x hx => ?_⟩
  rcases hreturned x hx with hold | hnew
  · exact h.unreturned x hold
  · exact hnew

/-- Calls of two nodes have two certificates. -/
theorem IsOpen.node_inj {s : CredentialRun} {node node' : NodeId} {o o' : OpenCall}
    (h : s.IsOpen node o) (h' : s.IsOpen node' o')
    (heq : o.admission.certificate = o'.admission.certificate) : node = node' := by
  have hnode : o.admission.certificate.body.node = node := h.minted.holder
  have hnode' : o'.admission.certificate.body.node = node' := h'.minted.holder
  rw [← hnode, ← hnode', heq]

/-- The store reflects what was returned, and all of that was minted by the issuer. -/
structure Faithful (issuer : Issuer) (s : CredentialRun) : Prop where
  authority : s.store.issuer = issuer
  lasts : s.store.Lasts
  reflects : s.store.Reflects s.returned
  minted : ∀ c ∈ s.minted, ∃ now : Moment, now.IsDated ∧
    IssuedBy issuer c.body.node c.body.role now c
  returned : ∀ x ∈ s.returned, x.IsMinted s.minted
  calls : ∀ node o, s.state.calls.get? node = some o → s.IsOpen node o

/-! ## Steps -/

variable {issuer : Issuer} {s s' : CredentialRun} {op : CredentialOp} {answer : AuthAnswer}

theorem Turn.minted_grows (h : s.Turn op answer s') : s.minted <+: s'.minted := by
  cases h with
  | quiet _ _ _ _ _ _ hminted _ _ => exact hminted ▸ List.prefix_rfl
  | begun _ _ _ _ _ _ _ _ _ _ hminted _ _ => exact hminted ▸ List.prefix_append _ _
  | recorded _ _ _ _ _ _ hminted _ _ => exact hminted ▸ List.prefix_rfl
  | failed _ _ _ _ _ hminted _ _ => exact hminted ▸ List.prefix_rfl
  | issued _ _ _ _ _ _ _ hminted _ _ => exact hminted ▸ List.prefix_append _ _
  | lost _ _ _ _ _ _ hminted _ _ => exact hminted ▸ List.prefix_append _ _
  | reopened _ _ _ _ hminted _ _ => exact hminted ▸ List.prefix_rfl

/-- With serial numbers that differ, a certificate is minted once. -/
theorem unminted_of_append {c : Certificate} (hminted : s'.minted = s.minted ++ [c])
    (hdistinct : s'.serials.Nodup) : c ∉ s.minted := by
  intro hc
  rw [serials, hminted, List.map_append, List.nodup_append] at hdistinct
  exact hdistinct.2.2 _ (List.mem_map_of_mem hc) _ (by simp) rfl

namespace Faithful

variable (h : s.Faithful issuer)
include h

/-- The store changes only when a credential is recorded, and then that credential is returned. -/
theorem turn_cases (hturn : s.Turn op answer s') (hwall : s.state.clock.wall.IsDated) :
    (s'.store = s.store ∧ s'.returned = s.returned ∧ answer.bundle? = none) ∨
      ∃ (sop : StoreOp) (fault : Option WriteFault) (bundle : Bundle), sop.IsDated ∧
        sop.apply s.store fault = .ok s'.store ∧
        s'.returned = s.returned ++ [sop.credential issuer] ∧
        (sop.credential issuer).IsMinted s'.minted ∧
        s.atStake op = some (sop.credential issuer) ∧ answer = .granted bundle ∧
        bundle.certificate = (sop.credential issuer).certificate.toBytes := by
  cases hturn with
  | quiet _ _ _ _ hbundle hstore _ hreturned _ => exact Or.inl ⟨hstore, hreturned, hbundle⟩
  | begun _ _ _ _ _ _ _ _ _ hstore _ hreturned _ => exact Or.inl ⟨hstore, hreturned, rfl⟩
  | failed _ _ _ _ hstore _ hreturned _ => exact Or.inl ⟨hstore, hreturned, rfl⟩
  | lost _ _ _ _ _ hstore _ hreturned _ => exact Or.inl ⟨hstore, hreturned, rfl⟩
  | recorded node fault o _ hget hrecord hminted hreturned _ =>
    have hopen := h.calls node o hget
    obtain ⟨now, hnow, hissued⟩ := h.minted _ hopen.minted.mem
    right
    refine ⟨o.call.storeOp s.state.clock.wall node o.admission.certificate, fault,
      o.admission.bundle, ?_⟩
    rw [Call.credential_storeOp, atStake, pending, hget, hminted]
    refine ⟨?_, ?_, hreturned, hopen.minted, rfl, rfl, hopen.bundle⟩
    · have hdated : o.admission.certificate.body.issuedAt.IsDated := hissued.issuedAt ▸ hnow
      cases o.call with
      | register metadata => exact ⟨hwall, hdated⟩
      | recover => exact hdated
    · rw [← hrecord, Authenticator.record, hopen.metadata, hopen.admitted]
      cases o.call <;> rfl
  | issued node fault bundle _ hissued hbundle hrecord hminted hreturned _ =>
    have hsame : (StoreOp.issueNode s.state.clock.wall node s.state.entropy).credential issuer =
        ⟨.process, node, s.processCertificate node⟩ := by
      rw [← h.authority]
      rfl
    right
    refine ⟨.issueNode s.state.clock.wall node s.state.entropy, fault, bundle, hwall, ?_⟩
    rw [hsame]
    refine ⟨?_, hreturned, ⟨?_, hissued.node, hissued.role⟩, rfl, rfl, hbundle⟩
    · rw [StoreOp.apply_eq]
      exact hrecord
    · rw [hminted]
      exact List.mem_append_right _ List.mem_cons_self
  | reopened d _ hdisk hopened _ hreturned _ =>
    rcases h.lasts with hnone | hkept
    · rw [hnone] at hdisk
      cases hdisk
    · -- the directory opens as the store that it was
      obtain ⟨d', hd', hagain⟩ := hkept.reopens
      obtain rfl := Option.some.inj (hd'.symm.trans hdisk)
      exact Or.inl ⟨Except.ok.inj (hopened.symm.trans hagain), hreturned, rfl⟩

theorem minted_turn (hturn : s.Turn op answer s') (hwall : s.state.clock.wall.IsDated) :
    ∀ c ∈ s'.minted, ∃ now : Moment, now.IsDated ∧
      IssuedBy issuer c.body.node c.body.role now c := by
  have hnew : ∀ c node role, IssuedBy s.store.issuer node role s.state.clock.wall c →
      s'.minted = s.minted ++ [c] → ∀ c ∈ s'.minted, ∃ now : Moment, now.IsDated ∧
        IssuedBy issuer c.body.node c.body.role now c := by
    rintro c _ _ ⟨hsigned, hissuer, rfl, rfl, hissuedAt⟩ hminted c' hc'
    rw [hminted, List.mem_append, List.mem_singleton] at hc'
    rcases hc' with hc' | rfl
    · exact h.minted c' hc'
    · rw [h.authority] at hsigned hissuer
      exact ⟨_, hwall, hsigned, hissuer, rfl, rfl, hissuedAt⟩
  cases hturn with
  | quiet _ _ _ _ _ _ hminted _ _ => exact hminted ▸ h.minted
  | begun _ _ _ _ _ _ hissued _ _ _ hminted _ _ => exact hnew _ _ _ hissued hminted
  | recorded _ _ _ _ _ _ hminted _ _ => exact hminted ▸ h.minted
  | failed _ _ _ _ _ hminted _ _ => exact hminted ▸ h.minted
  | issued _ _ _ _ hissued _ _ hminted _ _ => exact hnew _ _ _ hissued hminted
  | lost _ _ _ _ hissued _ hminted _ _ => exact hnew _ _ _ hissued hminted
  | reopened _ _ _ _ hminted _ _ => exact hminted ▸ h.minted

theorem calls_turn (hturn : s.Turn op answer s') (hdistinct : s'.serials.Nodup) :
    ∀ node o, s'.state.calls.get? node = some o → s'.IsOpen node o := by
  have hgrows := hturn.minted_grows.subset
  intro node' o' ho'
  cases hturn with
  | quiet _ _ _ _ _ _ _ hreturned hcalls =>
    rw [hcalls] at ho'
    exact (h.calls node' o' ho').mono hgrows fun x hx => Or.inl (hreturned ▸ hx)
  | begun node call _ _ o _ hissued hadmission hbundle _ hminted hreturned hcalls =>
    rw [hcalls, Table.get?_set] at ho'
    split at ho'
    · next heq =>
      obtain rfl := Option.some.inj ho'
      subst heq
      obtain ⟨rfl, hnode, hmetadata⟩ := hadmission
      refine ⟨hnode, hmetadata, hbundle, ⟨?_, hissued.node, ?_⟩, ?_⟩
      · rw [hminted]
        exact List.mem_append_right _ List.mem_cons_self
      · rw [hissued.role]
        cases o.call <;> rfl
      · intro x hx heq
        rw [hreturned] at hx
        exact unminted_of_append hminted hdistinct (heq ▸ (h.returned x hx).mem)
    · exact (h.calls node' o' ho').mono hgrows fun x hx => Or.inl (hreturned ▸ hx)
  | recorded node _ o _ hget _ _ hreturned hcalls =>
    rw [hcalls, Table.get?_erase] at ho'
    split at ho'
    · cases ho'
    · next hother =>
      have hopen' := h.calls node' o' ho'
      refine hopen'.mono hgrows fun x hx => ?_
      rw [hreturned, List.mem_append, List.mem_singleton] at hx
      rcases hx with hx | rfl
      · exact Or.inl hx
      · exact Or.inr fun heq => hother (hopen'.node_inj (h.calls node o hget) heq.symm)
  | failed node _ _ _ _ _ hreturned hcalls =>
    rw [hcalls, Table.get?_erase] at ho'
    split at ho'
    · cases ho'
    · exact (h.calls node' o' ho').mono hgrows fun x hx => Or.inl (hreturned ▸ hx)
  | issued node _ _ _ hissued _ _ _ hreturned hcalls =>
    rw [hcalls] at ho'
    have hopen' := h.calls node' o' ho'
    refine hopen'.mono hgrows fun x hx => ?_
    rw [hreturned, List.mem_append, List.mem_singleton] at hx
    rcases hx with hx | rfl
    · exact Or.inl hx
    · right
      rintro (heq : s.processCertificate node = o'.admission.certificate)
      have hrole := hopen'.minted.role
      rw [← heq, hissued.role] at hrole
      cases hcall : o'.call <;> rw [hcall] at hrole <;> cases hrole
  | lost _ _ _ _ _ _ _ hreturned hcalls =>
    rw [hcalls] at ho'
    exact (h.calls node' o' ho').mono hgrows fun x hx => Or.inl (hreturned ▸ hx)
  | reopened _ _ _ _ _ _ hcalls =>
    rw [hcalls] at ho'
    cases ho'

/-- A step keeps the store faithful, as long as no serial number is drawn twice. -/
theorem turn (hturn : s.Turn op answer s') (hwall : s.state.clock.wall.IsDated)
    (hdistinct : s'.serials.Nodup) : s'.Faithful issuer := by
  have hminted := h.minted_turn hturn hwall
  have hcalls := h.calls_turn hturn hdistinct
  have hgrows := hturn.minted_grows.subset
  rcases h.turn_cases hturn hwall with
    ⟨hstore, hreturned, -⟩ | ⟨sop, fault, bundle, hsop, happly, hreturned, hsound, -⟩
  · refine ⟨?_, ?_, ?_, hminted, ?_, hcalls⟩
    · rw [hstore]
      exact h.authority
    · rw [hstore]
      exact h.lasts
    · rw [hstore, hreturned]
      exact h.reflects
    · rw [hreturned]
      exact fun x hx => (h.returned x hx).mono hgrows
  · have hissuer : s'.store.issuer = s.store.issuer := Store.issuer_apply happly
    refine ⟨hissuer.trans h.authority, h.lasts.apply hsop happly, ?_, hminted, ?_, hcalls⟩
    · rw [hreturned, ← h.authority]
      exact h.reflects.apply happly
    · rw [hreturned]
      intro x hx
      rcases List.mem_append.1 hx with hx | hx
      · exact (h.returned x hx).mono hgrows
      · obtain rfl := List.mem_singleton.1 hx
        exact hsound

end Faithful

/-! ## Certificates that are lost -/

/-- The certificate was minted, but nobody was given it, and no call is about to. -/
structure IsLost (s : CredentialRun) (c : Certificate) : Prop where
  minted : c ∈ s.minted
  unreturned : ∀ x ∈ s.returned, x.certificate ≠ c
  closed : ∀ node o, s.state.calls.get? node = some o → o.admission.certificate ≠ c

/-- A certificate that is lost stays lost. -/
theorem IsLost.turn {c : Certificate} (h : s.IsLost c) (hturn : s.Turn op answer s')
    (hdistinct : s'.serials.Nodup) : s'.IsLost c := by
  have hminted : c ∈ s'.minted := hturn.minted_grows.subset h.minted
  have hnew : ∀ c', s'.minted = s.minted ++ [c'] → c' ≠ c := by
    rintro c' heq rfl
    exact unminted_of_append heq hdistinct h.minted
  cases hturn with
  | quiet _ _ _ _ _ _ _ hreturned hcalls =>
    exact ⟨hminted, hreturned ▸ h.unreturned, hcalls ▸ h.closed⟩
  | begun node call _ _ o _ _ _ _ _ heq hreturned hcalls =>
    refine ⟨hminted, hreturned ▸ h.unreturned, fun node' o' ho' => ?_⟩
    rw [hcalls, Table.get?_set] at ho'
    split at ho'
    · obtain rfl := Option.some.inj ho'
      exact hnew _ heq
    · exact h.closed node' o' ho'
  | recorded node _ o _ hget _ _ hreturned hcalls =>
    refine ⟨hminted, fun x hx => ?_, fun node' o' ho' => ?_⟩
    · rw [hreturned, List.mem_append, List.mem_singleton] at hx
      rcases hx with hx | rfl
      · exact h.unreturned x hx
      · exact h.closed node o hget
    · rw [hcalls, Table.get?_erase] at ho'
      split at ho'
      · cases ho'
      · exact h.closed node' o' ho'
  | failed node _ _ _ _ _ hreturned hcalls =>
    refine ⟨hminted, hreturned ▸ h.unreturned, fun node' o' ho' => ?_⟩
    rw [hcalls, Table.get?_erase] at ho'
    split at ho'
    · cases ho'
    · exact h.closed node' o' ho'
  | issued node _ _ _ _ _ _ heq hreturned hcalls =>
    refine ⟨hminted, fun x hx => ?_, hcalls ▸ h.closed⟩
    rw [hreturned, List.mem_append, List.mem_singleton] at hx
    rcases hx with hx | rfl
    · exact h.unreturned x hx
    · exact hnew _ heq
  | lost _ _ _ _ _ _ _ hreturned hcalls =>
    exact ⟨hminted, hreturned ▸ h.unreturned, hcalls ▸ h.closed⟩
  | reopened _ _ _ _ _ hreturned hcalls =>
    refine ⟨hminted, hreturned ▸ h.unreturned, fun node' o' ho' => ?_⟩
    rw [hcalls] at ho'
    cases ho'

end CredentialRun

namespace CredentialRun

variable {issuer : Issuer} {s s' : CredentialRun} {op : CredentialOp} {answer : AuthAnswer}

theorem state_applyAuth (s : CredentialRun) (op : AuthOp) :
    (s.applyAuth op).2.state = (s.state.step op).2 := by
  rcases hstep : s.state.step op with ⟨answer, state⟩
  rw [applyAuth, hstep]
  cases answer <;> cases op <;> rfl

/-- Only the passing of time moves the clocks. -/
theorem clock_step (s : CredentialRun) (op : CredentialOp) :
    (s.step op).2.state.clock = s.state.clock ∨
      ∃ duration, (s.step op).2.state.clock = s.state.clock.advance duration := by
  cases op with
  | auth op =>
    rw [step, state_applyAuth]
    exact s.state.clock_step op
  | issueNode node fault =>
    left
    rw [step, issueNode]
    split
    next answer auth entropy _ =>
      cases answer <;> rfl
  | reopen =>
    left
    rw [step, reopen]
    split <;> rfl

theorem minted_run (s : CredentialRun) (ops : List CredentialOp) :
    s.minted <+: (s.run ops).minted := by
  induction ops generalizing s with
  | nil => exact List.prefix_rfl
  | cons op ops ih => exact (s.turn_step op).minted_grows.trans (ih _)

/-- Serial numbers that differ at the end of a run differ before. -/
theorem distinct_of_run (s : CredentialRun) (ops : List CredentialOp)
    (hdistinct : (s.run ops).serials.Nodup) : s.serials.Nodup :=
  ((s.minted_run ops).map fun c : Certificate => c.body.serial).sublist.nodup hdistinct

end CredentialRun

end SigningGateway
