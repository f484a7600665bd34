import SigningGateway.Auth.Store
import SigningGateway.Proofs.Auth.Snapshot

/-!
# What a data directory keeps

A change of the registrations is a row of effects: the snapshot is written to the scratch file, the
scratch file is renamed, and only then the registrations change.  A fault ends the row.  So whatever
fails when, the directory holds the registrations of the store: who opens it again gets the store.

    perform s op = apply op s, up to the scratch file of a failed call         (perform_apply)
    openDisk issuer disk = .ok s → openDisk issuer (disk of run s) = .ok (run s)
                                                                              (reopens_after_run)
-/

namespace SigningGateway

/-! ## Operations of the store -/

/-- An operation that changes the registrations. -/
inductive StoreOp
  | register (now : Moment) (node : NodeId) (metadata : Metadata) (c : Certificate)
  | recover (node : NodeId) (c : Certificate)
  | issueNode (now : Moment) (node : NodeId) (e : Entropy)

namespace StoreOp

/-- The node whose registration changes. -/
def node : StoreOp → NodeId
  | .register _ node _ _ => node
  | .recover node _ => node
  | .issueNode _ node _ => node

def apply (s : Store) (fault : Option WriteFault) : StoreOp → Except Error Store
  | .register now node metadata c => s.recordRegistration fault now node metadata c
  | .recover node c => s.recordRecovery fault node c
  | .issueNode now node e => (s.issueNodeCredential fault now node e).1.map Prod.snd

/-- What the operation makes of the registration of its node. -/
def change (issuer : Issuer) : StoreOp → Option Registration → Except Error Registration
  | .register now node metadata c => fun current =>
    .ok ⟨node, metadata, now, [.ofCertificate c], current.bind (·.nodeCertificate)⟩
  | .recover node c => Store.changeRegistered node fun r =>
    { r with certificates := r.certificates ++ [.ofCertificate c] }
  | .issueNode now node e => Store.changeRegistered node fun r =>
    { r with
      nodeCertificate := some (.ofCertificate (issuer.issue node .node "node" now e).1.1) }

/-- The times that the operation writes down have a written form. -/
def IsDated : StoreOp → Prop
  | .register now _ _ c => now.IsDated ∧ c.body.issuedAt.IsDated
  | .recover _ c => c.body.issuedAt.IsDated
  | .issueNode now _ _ => now.IsDated

theorem apply_eq (s : Store) (fault : Option WriteFault) (op : StoreOp) :
    op.apply s fault = s.commit fault op.node (op.change s.issuer) := by
  cases op with
  | register now node metadata c => rfl
  | recover node c => rfl
  | issueNode now node e =>
    show ((s.recordNodeCertificate fault node (s.issuer.issue node .node "node" now e).1.1).map
      fun s' => ((s.issuer.issue node .node "node" now e).1.2, s')).map Prod.snd = _
    show _ = s.recordNodeCertificate fault node (s.issuer.issue node .node "node" now e).1.1
    cases s.recordNodeCertificate fault node (s.issuer.issue node .node "node" now e).1.1 <;> rfl

/-- A change is refused only to a node that is not registered. -/
theorem change_error (issuer : Issuer) (op : StoreOp) (current : Option Registration)
    (cause : Error) (h : op.change issuer current = .error cause) :
    cause = .unknownIdentity op.node ∧ current = none := by
  have hregistered : ∀ (node : NodeId) (change : Registration → Registration),
      Store.changeRegistered node change current = .error cause →
        cause = .unknownIdentity node ∧ current = none := by
    intro node change h
    cases current with
    | none => exact ⟨(Except.error.inj h).symm, rfl⟩
    | some r => cases h
  cases op with
  | register now node metadata c => cases h
  | recover node c => exact hregistered node _ h
  | issueNode now node e => exact hregistered node _ h

/-- A changed registration stands for the same node, and its times have a written form. -/
theorem change_ok (issuer : Issuer) (op : StoreOp) (current : Option Registration)
    (r : Registration) (hop : op.IsDated)
    (hcurrent : ∀ r, current = some r → r.node = op.node ∧ r.IsDated)
    (h : op.change issuer current = .ok r) : r.node = op.node ∧ r.IsDated := by
  have hregistered : ∀ (node : NodeId) (change : Registration → Registration),
      Store.changeRegistered node change current = .ok r →
        ∃ r₀, current = some r₀ ∧ change r₀ = r := by
    intro node change h
    cases current with
    | none => cases h
    | some r₀ => exact ⟨r₀, rfl, Except.ok.inj h⟩
  cases op with
  | register now node metadata c =>
    obtain rfl := Except.ok.inj h
    refine ⟨rfl, hop.1, ?_, ?_⟩
    · intro c' hc'
      obtain rfl := List.mem_singleton.1 hc'
      exact hop.2
    · intro c' hc'
      obtain ⟨r₀, hr₀, hc'⟩ := Option.bind_eq_some_iff.1 hc'
      exact (hcurrent r₀ hr₀).2.nodeCertificate c' hc'
  | recover node c =>
    obtain ⟨r₀, hr₀, rfl⟩ := hregistered node _ h
    obtain ⟨hnode, hdated⟩ := hcurrent r₀ hr₀
    refine ⟨hnode, hdated.registeredAt, ?_, hdated.nodeCertificate⟩
    intro c' hc'
    rcases List.mem_append.1 hc' with hc' | hc'
    · exact hdated.certificates c' hc'
    · obtain rfl := List.mem_singleton.1 hc'
      exact hop
  | issueNode now node e =>
    obtain ⟨r₀, hr₀, rfl⟩ := hregistered node _ h
    obtain ⟨hnode, hdated⟩ := hcurrent r₀ hr₀
    refine ⟨hnode, hdated.registeredAt, hdated.certificates, ?_⟩
    intro c' hc'
    obtain rfl := Option.some.inj hc'
    exact hop

end StoreOp

/-! ## Effects -/

namespace Disk

/-- Writes the scratch file; a write that fails leaves anything there. -/
def writeScratch (d : Disk) (fault : Option WriteFault) (left content : Bytes) :
    Except String Unit × Disk :=
  match fault, d.scratch with
  | some (.write reason), .directory => (.error reason, d)
  | some (.write reason), _ => (.error reason, { d with scratch := .file left })
  | _, .directory => (.error isDirectory, d)
  | _, _ => (.ok (), { d with scratch := .file content })

/-- Renames the scratch file to the snapshot, or removes it if that fails. -/
def renameScratch (d : Disk) (fault : Option WriteFault) : Except String Unit × Disk :=
  match fault, d.snapshot with
  | some (.rename reason), _ => (.error reason, { d with scratch := .missing })
  | _, .directory => (.error isDirectory, { d with scratch := .missing })
  | _, _ => (.ok (), { d with snapshot := d.scratch, scratch := .missing })

end Disk

namespace Store

/-- One step of a change of the registrations. -/
inductive Effect
  | write (content : Bytes)
  | rename
  | publish (registrations : Table NodeId Registration)

/-- A step on the disk, if there is one. -/
def onDisk (s : Store) (action : Disk → Except String Unit × Disk) : Except Error Unit × Store :=
  match s.disk with
  | none => (.ok (), s)
  | some d =>
    match action d with
    | (.ok (), d) => (.ok (), { s with disk := some d })
    | (.error reason, d) => (.error (.internal reason), { s with disk := some d })

def effect (s : Store) (fault : Option WriteFault) (left : Bytes) :
    Effect → Except Error Unit × Store
  | .write content => s.onDisk fun d => d.writeScratch fault left content
  | .rename => s.onDisk fun d => d.renameScratch fault
  | .publish registrations => (.ok (), { s with registrations })

/-- Takes steps up to the first one that fails. -/
def effects (s : Store) (fault : Option WriteFault) (left : Bytes) :
    List Effect → Except Error Unit × Store
  | [] => (.ok (), s)
  | e :: rest =>
    match s.effect fault left e with
    | (.ok (), s) => s.effects fault left rest
    | (.error cause, s) => (.error cause, s)

/-- Performs an operation step by step. -/
def perform (s : Store) (fault : Option WriteFault) (left : Bytes) (op : StoreOp) :
    Except Error Unit × Store :=
  match op.change s.issuer (s.registration op.node) with
  | .error cause => (.error cause, s)
  | .ok r =>
    let registrations := s.registrations.set op.node r
    s.effects fault left
      [.write (snapshotBytes registrations.values), .rename, .publish registrations]

/-- The store with something else in the scratch file. -/
def withScratch (s : Store) (scratch : Slot) : Store :=
  { s with disk := s.disk.map fun d => { d with scratch } }

/-- On a disk the steps come to the replacement of the snapshot, and publish only after it. -/
theorem effects_replace (s : Store) (d : Disk) (hd : s.disk = some d) (fault : Option WriteFault)
    (left content : Bytes) (registrations : Table NodeId Registration) :
    match d.replaceSnapshot fault content with
    | .ok d' => s.effects fault left [.write content, .rename, .publish registrations] =
        (.ok (), { s with registrations, disk := some d' })
    | .error reason =>
      ∃ scratch, s.effects fault left [.write content, .rename, .publish registrations] =
        (.error (.internal reason), s.withScratch scratch) := by
  obtain ⟨issuer, current, disk⟩ := s
  obtain rfl : disk = some d := hd
  obtain ⟨name, snapshot, scratch⟩ := d
  cases fault with
  | none =>
    cases scratch <;> cases snapshot <;> first | rfl | exact ⟨_, rfl⟩
  | some fault =>
    cases fault <;> cases scratch <;> cases snapshot <;> exact ⟨_, rfl⟩

theorem exists_withScratch (s : Store) : ∃ scratch, s.withScratch scratch = s := by
  obtain ⟨issuer, registrations, disk⟩ := s
  cases disk with
  | none => exact ⟨.missing, rfl⟩
  | some d => exact ⟨d.scratch, rfl⟩

/-- Step by step an operation comes to the same, but for what a failed one leaves in the scratch
file. -/
theorem perform_apply (s : Store) (fault : Option WriteFault) (left : Bytes) (op : StoreOp) :
    (∃ s', op.apply s fault = .ok s' ∧ s.perform fault left op = (.ok (), s')) ∨
      ∃ cause scratch, op.apply s fault = .error cause ∧
        s.perform fault left op = (.error cause, s.withScratch scratch) := by
  rw [StoreOp.apply_eq, perform]
  cases hchange : op.change s.issuer (s.registration op.node) with
  | error cause =>
    obtain ⟨scratch, hscratch⟩ := s.exists_withScratch
    simp only [commit, hchange]
    exact Or.inr ⟨cause, scratch, rfl, by rw [hscratch]⟩
  | ok r =>
    cases hdisk : s.disk with
    | none =>
      simp only [commit, hchange, hdisk, effects, effect, onDisk, bind, Except.bind]
      exact Or.inl ⟨_, rfl, rfl⟩
    | some d =>
      have hsteps := s.effects_replace d hdisk fault left
        (snapshotBytes (s.registrations.set op.node r).values) (s.registrations.set op.node r)
      simp only [commit, hchange, hdisk, bind, Except.bind]
      cases hreplace : d.replaceSnapshot fault
          (snapshotBytes (s.registrations.set op.node r).values) with
      | ok d' =>
        rw [hreplace] at hsteps
        exact Or.inl ⟨_, rfl, hsteps⟩
      | error reason =>
        rw [hreplace] at hsteps
        obtain ⟨scratch, hsteps⟩ := hsteps
        exact Or.inr ⟨_, scratch, rfl, hsteps⟩

/-! ## Registrations by node -/

theorem entries_set_of_none (t : Table NodeId Registration) (node : NodeId) (r : Registration)
    (h : t.get? node = none) : (t.set node r).entries = t.entries ++ [(node, r)] := by
  have hkeep : (t.erase node).entries = t.entries := by
    apply List.filter_eq_self.2
    rintro ⟨node', r'⟩ hmem
    have hother : node' ≠ node := by
      rintro rfl
      rw [(Table.get?_eq_some_iff t node' r').2 hmem] at h
      cases h
    simpa using hother
  show (t.erase node).entries ++ [(node, r)] = _
  rw [hkeep]

/-- The registrations of a table whose keys are their nodes make up the table. -/
theorem ofRegistrations_values (t : Table NodeId Registration)
    (h : ∀ node r, t.get? node = some r → r.node = node) : ofRegistrations t.values = t := by
  have hfold : ∀ (rest : List (NodeId × Registration)) (front : Table NodeId Registration),
      front.entries ++ rest = t.entries →
        ((rest.map Prod.snd).foldl (fun t r => t.set r.node r) front).entries = t.entries := by
    intro rest
    induction rest with
    | nil =>
      intro front hfront
      rw [List.append_nil] at hfront
      exact hfront
    | cons e rest ih =>
      intro front hfront
      obtain ⟨node, r⟩ := e
      have hmem : (node, r) ∈ t.entries := by rw [← hfront]; simp
      have hnode := h node r ((Table.get?_eq_some_iff t node r).2 hmem)
      have hnone : front.get? node = none := by
        cases hget : front.get? node with
        | none => rfl
        | some r' =>
          have hkeys := t.nodup_keys
          rw [← hfront, List.map_append, List.nodup_append] at hkeys
          have hfirst := List.mem_map_of_mem (f := Prod.fst)
            ((Table.get?_eq_some_iff front node r').1 hget)
          exact absurd rfl (hkeys.2.2 node hfirst node (by simp))
      rw [List.map_cons, List.foldl_cons, hnode]
      apply ih
      rw [entries_set_of_none front node r hnone, ← hfront, List.append_assoc]
      rfl
  have hentries : (ofRegistrations t.values).entries = t.entries := hfold t.entries .empty rfl
  generalize ofRegistrations t.values = t' at hentries
  obtain ⟨entries, hkeys⟩ := t
  obtain ⟨entries', hkeys'⟩ := t'
  obtain rfl : entries' = entries := hentries
  rfl

/-- Each registration of a list stands under its node. -/
theorem of_get?_ofRegistrations (registrations : List Registration) (node : NodeId)
    (r : Registration) (h : (ofRegistrations registrations).get? node = some r) :
    r ∈ registrations ∧ r.node = node := by
  have hfold : ∀ (registrations : List Registration) (t : Table NodeId Registration),
      (registrations.foldl (fun t r => t.set r.node r) t).get? node = some r →
        (r ∈ registrations ∧ r.node = node) ∨ t.get? node = some r := by
    intro registrations
    induction registrations with
    | nil => exact fun t h => Or.inr h
    | cons r' registrations ih =>
      intro t h
      rcases ih _ h with ⟨hmem, hnode⟩ | hset
      · exact Or.inl ⟨List.mem_cons_of_mem _ hmem, hnode⟩
      · rw [Table.get?_set] at hset
        split at hset
        · next hnode =>
          obtain rfl := Option.some.inj hset
          exact Or.inl ⟨List.mem_cons_self, hnode.symm⟩
        · exact Or.inr hset
  rcases hfold registrations .empty h with hmem | hempty
  · exact hmem
  · cases hempty

/-! ## Opening again -/

/-- A store that is kept: its directory opens as the store, each registration stands under its own
node, and its times have a written form. -/
structure Kept (s : Store) : Prop where
  reopens : ∃ d, s.disk = some d ∧ openDisk s.issuer d = .ok s
  keyed : ∀ node r, s.registration node = some r → r.node = node
  dated : ∀ node r, s.registration node = some r → r.IsDated

/-- A store that was opened is kept. -/
theorem kept_openDisk (issuer : Issuer) (d : Disk) (s : Store) (h : openDisk issuer d = .ok s) :
    s.Kept ∧ s.issuer = issuer ∧ s.disk = some d := by
  have hopen := h
  unfold openDisk at h
  split at h
  · obtain rfl := Except.ok.inj h
    exact ⟨⟨⟨d, rfl, hopen⟩, by rintro node r ⟨⟩, by rintro node r ⟨⟩⟩, rfl, rfl⟩
  · cases h
  · next content _ =>
    split at h
    · next registrations hdecode =>
      obtain rfl := Except.ok.inj h
      obtain ⟨values, hvalues, hend⟩ := (Json.bind_eq_ok _ _ _).1 hdecode
      have hdated := isDated_decodeSnapshot _ _ hvalues
      split at hend
      · obtain rfl := Except.ok.inj hend
        refine ⟨⟨⟨d, rfl, hopen⟩, ?_, ?_⟩, rfl, rfl⟩
        · exact fun node r hr => (of_get?_ofRegistrations _ node r hr).2
        · exact fun node r hr => hdated r (of_get?_ofRegistrations _ node r hr).1
      · cases hend
    · cases h

theorem openDisk_withScratch (issuer : Issuer) (d : Disk) (scratch : Slot) (s : Store)
    (h : openDisk issuer d = .ok s) :
    openDisk issuer { d with scratch } = .ok (s.withScratch scratch) := by
  obtain ⟨name, snapshot, left⟩ := d
  cases snapshot with
  | missing =>
    obtain rfl := Except.ok.inj h
    rfl
  | directory => cases h
  | file content =>
    simp only [openDisk] at h ⊢
    split at h
    · next registrations hdecode =>
      obtain rfl := Except.ok.inj h
      rfl
    · cases h

theorem Kept.withScratch {s : Store} (h : s.Kept) (scratch : Slot) :
    (s.withScratch scratch).Kept := by
  obtain ⟨⟨d, hdisk, hopen⟩, hkeyed, hdated⟩ := h
  refine ⟨⟨{ d with scratch }, ?_, openDisk_withScratch s.issuer d scratch s hopen⟩, hkeyed, hdated⟩
  rw [Store.withScratch, hdisk]
  rfl

theorem snapshot_replaceSnapshot (d d' : Disk) (fault : Option WriteFault) (content : Bytes)
    (h : d.replaceSnapshot fault content = .ok d') : d'.snapshot = .file content := by
  unfold Disk.replaceSnapshot at h
  split at h
  · cases h
  · cases h
  · cases h
  · cases h
  · obtain rfl := Except.ok.inj h
    rfl

/-- What a change of the registrations leaves, if it is written. -/
theorem commit_cases (s s' : Store) (fault : Option WriteFault) (node : NodeId)
    (change : Option Registration → Except Error Registration)
    (h : s.commit fault node change = .ok s') :
    ∃ r, change (s.registration node) = .ok r ∧ s'.issuer = s.issuer ∧
      s'.registrations = s.registrations.set node r ∧
      (s.disk = none ∧ s'.disk = none ∨ ∃ d d', s.disk = some d ∧ s'.disk = some d' ∧
        d'.snapshot = .file (snapshotBytes (s.registrations.set node r).values)) := by
  cases hchange : change (s.registration node) with
  | error cause =>
    rw [commit, hchange] at h
    cases h
  | ok r =>
    refine ⟨r, rfl, ?_⟩
    simp only [commit, hchange, bind, Except.bind] at h
    split at h
    · next hdisk =>
      obtain rfl := Except.ok.inj h
      exact ⟨rfl, rfl, Or.inl ⟨hdisk, hdisk⟩⟩
    · next d hdisk =>
      split at h
      · next d' hreplace =>
        obtain rfl := Except.ok.inj h
        have hsnapshot := snapshot_replaceSnapshot d d' fault _ hreplace
        exact ⟨rfl, rfl, Or.inr ⟨d, d', hdisk, rfl, hsnapshot⟩⟩
      · cases h

/-- A change that is written concerns the registration of its node and no other. -/
theorem registration_commit (s s' : Store) (fault : Option WriteFault) (node : NodeId)
    (change : Option Registration → Except Error Registration)
    (h : s.commit fault node change = .ok s') :
    ∃ r, change (s.registration node) = .ok r ∧ s'.issuer = s.issuer ∧
      ∀ node', s'.registration node' = if node' = node then some r else s.registration node' := by
  obtain ⟨r, hr, hissuer, hset, -⟩ := commit_cases s s' fault node change h
  refine ⟨r, hr, hissuer, fun node' => ?_⟩
  rw [registration, hset, Table.get?_set]
  rfl

theorem issuer_apply {s s' : Store} {op : StoreOp} {fault : Option WriteFault}
    (happly : op.apply s fault = .ok s') : s'.issuer = s.issuer := by
  rw [StoreOp.apply_eq] at happly
  obtain ⟨-, -, hissuer, -⟩ := registration_commit _ _ _ _ _ happly
  exact hissuer

/-- A change of the registrations fails for its own reason or for one of the disk. -/
theorem commit_error (s : Store) (fault : Option WriteFault) (node : NodeId)
    (change : Option Registration → Except Error Registration) (cause : Error)
    (h : s.commit fault node change = .error cause) :
    change (s.registration node) = .error cause ∨ ∃ reason, cause = .internal reason := by
  cases hchange : change (s.registration node) with
  | error cause' =>
    simp only [commit, hchange, bind, Except.bind] at h
    exact Or.inl (congrArg Except.error (Except.error.inj h))
  | ok r =>
    right
    simp only [commit, hchange, bind, Except.bind] at h
    split at h
    · cases h
    · split at h
      · cases h
      · next reason _ => exact ⟨reason, (Except.error.inj h).symm⟩

/-- A change that is written is kept. -/
theorem Kept.commit {s s' : Store} (h : s.Kept) (fault : Option WriteFault) (node : NodeId)
    (change : Option Registration → Except Error Registration)
    (hchange : ∀ r, change (s.registration node) = .ok r → r.node = node ∧ r.IsDated)
    (hcommit : s.commit fault node change = .ok s') : s'.Kept := by
  obtain ⟨r, hr, -, hset, hdisk⟩ := commit_cases s s' fault node change hcommit
  obtain ⟨r', hr', hissuer, hget⟩ := registration_commit s s' fault node change hcommit
  obtain rfl := Except.ok.inj (hr.symm.trans hr')
  obtain ⟨hnode, hr⟩ := hchange r hr
  have hkeyed : ∀ node' r', s'.registration node' = some r' → r'.node = node' := by
    intro node' r' h'
    rw [hget] at h'
    split at h'
    · next heq =>
      obtain rfl := Option.some.inj h'
      rw [heq, hnode]
    · exact h.keyed node' r' h'
  have hdated : ∀ node' r', s'.registration node' = some r' → r'.IsDated := by
    intro node' r' h'
    rw [hget] at h'
    split at h'
    · obtain rfl := Option.some.inj h'
      exact hr
    · exact h.dated node' r' h'
  refine ⟨?_, hkeyed, hdated⟩
  rcases hdisk with ⟨hnone, -⟩ | ⟨-, d', -, hd', hsnapshot⟩
  · obtain ⟨d, hd, -⟩ := h.reopens
    rw [hnone] at hd
    cases hd
  · have hvalues : ∀ r' ∈ s'.registrations.values, r'.IsDated := by
      intro r' hr'
      obtain ⟨⟨node', r'⟩, hmem, rfl⟩ := List.mem_map.1 hr'
      exact hdated node' r' ((Table.get?_eq_some_iff _ _ _).2 hmem)
    rw [← hset] at hsnapshot
    refine ⟨d', hd', ?_⟩
    rw [openDisk, hsnapshot]
    simp only [decodeBytes_snapshotBytes _ hvalues,
      ofRegistrations_values s'.registrations hkeyed]
    rw [← hd']

/-- An operation that succeeds is kept. -/
theorem Kept.apply {s s' : Store} (h : s.Kept) {op : StoreOp} {fault : Option WriteFault}
    (hop : op.IsDated) (happly : op.apply s fault = .ok s') : s'.Kept := by
  rw [StoreOp.apply_eq] at happly
  refine h.commit fault op.node _ (fun r hr => ?_) happly
  exact op.change_ok s.issuer _ r hop (fun r₀ hr₀ => ⟨h.keyed _ r₀ hr₀, h.dated _ r₀ hr₀⟩) hr

/-! ## Runs -/

/-- A call of a store: the operation, the fault that may meet it, and what a failed write leaves in
the scratch file. -/
structure Call where
  op : StoreOp
  fault : Option WriteFault
  left : Bytes

def answer (s : Store) (call : Call) : Except Error Unit × Store :=
  s.perform call.fault call.left call.op

theorem answer_apply (s : Store) (call : Call) :
    (∃ s', call.op.apply s call.fault = .ok s' ∧ s.answer call = (.ok (), s')) ∨
      ∃ cause scratch, call.op.apply s call.fault = .error cause ∧
        s.answer call = (.error cause, s.withScratch scratch) :=
  s.perform_apply call.fault call.left call.op

def run (s : Store) (calls : List Call) : Store := calls.foldl (fun s call => (s.answer call).2) s

/-- What lies at the place of the snapshot. -/
def snapshot? (s : Store) : Option Slot := s.disk.map Disk.snapshot

/-- A call changes the registration of its node if it succeeds, and otherwise nothing but the
scratch file. -/
theorem answer_cases (s : Store) (call : Call) :
    match (s.answer call).1 with
    | .ok () =>
      call.op.apply s call.fault = .ok (s.answer call).2 ∧
        (∃ r, call.op.change s.issuer (s.registration call.op.node) = .ok r ∧
          (s.answer call).2.registration call.op.node = some r) ∧
        ∀ node, node ≠ call.op.node →
          (s.answer call).2.registration node = s.registration node
    | .error cause =>
      call.op.apply s call.fault = .error cause ∧
        (cause = .unknownIdentity call.op.node ∧ s.isRegistered call.op.node = false ∨
          ∃ reason, cause = .internal reason) ∧
        (s.answer call).2.registrations = s.registrations ∧
        (s.answer call).2.snapshot? = s.snapshot? := by
  rcases s.answer_apply call with ⟨s', happly, hanswer⟩ | ⟨cause, scratch, happly, hanswer⟩
  · rw [hanswer]
    refine ⟨happly, ?_⟩
    rw [StoreOp.apply_eq] at happly
    obtain ⟨r, hr, -, hget⟩ := registration_commit _ _ _ _ _ happly
    exact ⟨⟨r, hr, (hget _).trans (if_pos rfl)⟩, fun node hnode => (hget _).trans (if_neg hnode)⟩
  · rw [hanswer]
    refine ⟨happly, ?_, rfl, ?_⟩
    · rw [StoreOp.apply_eq] at happly
      rcases commit_error _ _ _ _ _ happly with hchange | hdisk
      · obtain ⟨hcause, hnone⟩ := StoreOp.change_error _ _ _ _ hchange
        have hget : s.registrations.get? call.op.node = none := hnone
        exact Or.inl ⟨hcause, by rw [isRegistered, Table.contains, hget]; rfl⟩
      · exact Or.inr hdisk
    · rw [snapshot?, snapshot?, withScratch]
      cases s.disk <;> rfl

/-- A call leaves a store kept. -/
theorem Kept.answer {s : Store} (h : s.Kept) (call : Call) (hop : call.op.IsDated) :
    (s.answer call).2.Kept := by
  rcases s.answer_apply call with ⟨s', happly, hanswer⟩ | ⟨cause, scratch, -, hanswer⟩
  · rw [hanswer]
    exact h.apply hop happly
  · rw [hanswer]
    exact h.withScratch scratch

theorem Kept.run {s : Store} (h : s.Kept) (calls : List Call)
    (hcalls : ∀ call ∈ calls, call.op.IsDated) : (s.run calls).Kept := by
  induction calls generalizing s with
  | nil => exact h
  | cons call calls ih =>
    exact ih (h.answer call (hcalls call List.mem_cons_self))
      fun call' hcall' => hcalls call' (List.mem_cons_of_mem _ hcall')

theorem issuer_answer (s : Store) (call : Call) : (s.answer call).2.issuer = s.issuer := by
  rcases s.answer_apply call with ⟨s', happly, hanswer⟩ | ⟨cause, scratch, -, hanswer⟩
  · rw [hanswer]
    exact issuer_apply happly
  · rw [hanswer]
    rfl

theorem issuer_run (s : Store) (calls : List Call) : (s.run calls).issuer = s.issuer := by
  induction calls generalizing s with
  | nil => rfl
  | cons call calls ih => exact (ih _).trans (s.issuer_answer call)

/-- Whatever calls a store that was opened answers, and whatever faults meet them: its directory
opens as the store, with the registrations that the store holds.  A call that fails, because its
node is not registered or the disk does not take the snapshot, changes neither the registrations nor
the snapshot; one that succeeds changes the registration of its node and no other. -/
theorem reopens_after_run (issuer : Issuer) (disk : Disk) (s : Store)
    (hopen : openDisk issuer disk = .ok s) (calls : List Call)
    (hcalls : ∀ call ∈ calls, call.op.IsDated) :
    let t := s.run calls
    (∃ d, t.disk = some d ∧ openDisk issuer d = .ok t) ∧
      ∀ call : Call, match (t.answer call).1 with
        | .ok () =>
          call.op.apply t call.fault = .ok (t.answer call).2 ∧
            (∃ r, call.op.change issuer (t.registration call.op.node) = .ok r ∧
              (t.answer call).2.registration call.op.node = some r) ∧
            ∀ node, node ≠ call.op.node →
              (t.answer call).2.registration node = t.registration node
        | .error cause =>
          call.op.apply t call.fault = .error cause ∧
            (cause = .unknownIdentity call.op.node ∧ t.isRegistered call.op.node = false ∨
              ∃ reason, cause = .internal reason) ∧
            (t.answer call).2.registrations = t.registrations ∧
            (t.answer call).2.snapshot? = t.snapshot? := by
  intro t
  obtain ⟨hkept, hissuer, -⟩ := kept_openDisk issuer disk s hopen
  have hissuer' : t.issuer = issuer := (s.issuer_run calls).trans hissuer
  obtain ⟨d, hd, hagain⟩ := (hkept.run calls hcalls).reopens
  rw [← hissuer']
  exact ⟨⟨d, hd, hagain⟩, fun call => t.answer_cases call⟩

/-- A node registers, and a recovery of it fails as the scratch file cannot be renamed: the
directory opens with the registration alone. -/
theorem reopened_after_failed_rename :
    let node : NodeId := ⟨List.replicate 32 7, rfl⟩
    let metadata : Metadata := ⟨[1, 255], some "a\"b\\c", "main"⟩
    let c : Certificate := ⟨⟨"1", node, [], .device, "device", ⟨5, 0⟩, ""⟩, []⟩
    let disk : Disk := .empty "data"
    let s : Store := ⟨⟨[]⟩, .empty, some disk⟩
    let calls : List Call := [⟨.register ⟨5, 7000⟩ node metadata c, none, []⟩,
      ⟨.recover node c, some (.rename "no space"), []⟩]
    let t := s.run calls
    openDisk ⟨[]⟩ disk = .ok s ∧ (∀ call ∈ calls, call.op.IsDated) ∧
      t.registration node = some ⟨node, metadata, ⟨5, 7000⟩, [.ofCertificate c], none⟩ ∧
      ∃ d, t.disk = some d ∧ openDisk ⟨[]⟩ d = .ok t := by
  intro node metadata c disk s calls t
  have hyears : Moment.firstSecond ≤ 5 ∧ 5 < Moment.endSecond := by decide
  have hdated : ∀ nanos, nanos < 1000000000 → (⟨5, nanos⟩ : Moment).IsDated :=
    fun _ hnanos => ⟨hyears.1, hyears.2, Or.inl hnanos⟩
  have hcalls : ∀ call ∈ calls, call.op.IsDated := by
    intro call hcall
    rcases List.mem_cons.1 hcall with rfl | hcall
    · exact ⟨hdated 7000 (by decide), hdated 0 (by decide)⟩
    · obtain rfl := List.mem_singleton.1 hcall
      exact hdated 0 (by decide)
  exact ⟨rfl, hcalls, rfl, (reopens_after_run ⟨[]⟩ disk s rfl calls hcalls).1⟩

end Store

end SigningGateway
