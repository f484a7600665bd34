import SigningGateway.Proofs.Relay.Invariant

/-!
# What is granted in a run

The word of a grant is read bit by bit.  A node whose stream was opened holds every named capability
for itself; its other ids hold what was granted to them last, which is never the right to grant and
never a bit without a meaning.  What a node is asked decides its grants, and nothing else does.

    a.contains b = true ↔ every bit of b is set in a                               (contains_iff)
    grants of (run s ops) = what was asked, applied to the grants of s          (get?_grants_run)
    the grant of an id = the argument of the last grant to it that was accepted (get?_grants_last)
-/

namespace SigningGateway

namespace Capabilities

/-! ## Bits -/

/-- Whether a bit is set. -/
def has (c : Capabilities) (bit : Nat) : Bool := c.bits.toNat.testBit bit

/-- The capabilities with a meaning, a bit each. -/
def named : List Capabilities :=
  [ecdh, signGossip, signOnchainTx, commitmentPoint, signRemoteTx, signClosingTx,
    signWillFundOffer, master]

theorem contains_iff (a b : Capabilities) :
    a.contains b = true ↔ ∀ bit, b.has bit = true → a.has bit = true := by
  rw [contains, decide_eq_true_eq, ← UInt64.toNat_inj, UInt64.toNat_and]
  constructor
  · intro heq bit hbit
    rw [has, ← heq, Nat.testBit_and, Bool.and_eq_true] at hbit
    exact hbit.1
  · intro hbits
    apply Nat.eq_of_testBit_eq
    intro bit
    rw [Nat.testBit_and, Bool.and_eq_right_iff_imp]
    exact hbits bit

theorem has_foldl_union (sets : List Capabilities) (c : Capabilities) (bit : Nat) :
    (sets.foldl union c).has bit = (c.has bit || sets.any fun a => a.has bit) := by
  induction sets generalizing c with
  | nil => simp
  | cons a rest ih =>
    have hunion : (c.union a).has bit = (c.has bit || a.has bit) := by
      simp [has, union, UInt64.toNat_or]
    rw [List.foldl_cons, ih, hunion, List.any_cons, Bool.or_assoc]

/-- The set of all capabilities holds the named ones and no other bit. -/
theorem has_all (bit : Nat) : all.has bit = true ↔ ∃ c ∈ named, c.has bit = true := by
  have hnone : none.has bit = false := by simp [has, none]
  rw [show all = named.foldl union none from rfl, has_foldl_union, hnone, Bool.false_or,
    List.any_eq_true]

theorem has_master (bit : Nat) : master.has bit = true ↔ bit = 10 := by
  rw [has, show master.bits.toNat = 2 ^ 10 from rfl, Nat.testBit_two_pow, decide_eq_true_eq,
    eq_comm]

/-- Whether a node with every capability may grant the set. -/
def isGrantable (c : Capabilities) : Bool := all.contains c && !c.contains master

theorem isGrantable_iff (c : Capabilities) :
    c.isGrantable = true ↔
      c.contains master = false ∧ ∀ bit, c.has bit = true → ∃ a ∈ named, a.has bit = true := by
  simp only [isGrantable, Bool.and_eq_true, contains_iff all, has_all, Bool.not_eq_true', and_comm]

end Capabilities

namespace Grants

/-- A node with every capability may grant any grantable set to its ids, but not to itself. -/
theorem grant_of_master (g : Grants) (node : NodeId) (dbid requested : UInt64)
    (hmaster : g.get? node masterDbid = some .all) :
    g.grant node dbid requested =
      if dbid ≠ masterDbid ∧ (⟨requested⟩ : Capabilities).isGrantable = true then
        .ok ⟨g.table.set (node, dbid) ⟨requested⟩⟩
      else .error (.capabilityViolation dbid requested Capabilities.all.bits) := by
  have hall : Capabilities.all.contains .master = true := by decide
  have hmay : g.mayGrant node dbid ⟨requested⟩ = true ↔
      dbid ≠ masterDbid ∧ (⟨requested⟩ : Capabilities).isGrantable = true := by
    simp only [mayGrant, masterOf, hmaster, Option.getD_some, hall, Capabilities.isGrantable,
      Bool.and_true, Bool.and_eq_true, decide_eq_true_eq, and_assoc]
    exact and_congr_right fun _ => and_comm
  rw [grant, masterOf, hmaster, Option.getD_some]
  simp only [hmay]

/-- A check passes just if a grant exists in which every requested bit is set. -/
theorem allows_iff (g : Grants) (node : NodeId) (dbid requested : UInt64) :
    g.allows node dbid requested = true ↔
      ∃ granted, g.get? node dbid = some granted ∧
        ∀ bit, (⟨requested⟩ : Capabilities).has bit = true → granted.has bit = true := by
  unfold allows
  cases g.get? node dbid with
  | none => simp
  | some granted => simp [Capabilities.contains_iff]

theorem get?_openNode (g : Grants) (node node' : NodeId) (dbid : UInt64) :
    (g.openNode node).get? node' dbid =
      if (node', dbid) = (node, masterDbid) then some .all else g.get? node' dbid :=
  Table.get?_set _ _ _ _

end Grants

/-! ## What a node is asked -/

/-- What a node is asked that concerns its grants. -/
inductive GrantOp
  | opens
  | grants (dbid capabilities : UInt64)
  deriving DecidableEq

namespace GrantOp

/-- The grants of a node by id, once it was asked one thing more. -/
def apply (held : UInt64 → Option Capabilities) : GrantOp → UInt64 → Option Capabilities
  | .opens, dbid => if dbid = masterDbid then some .all else held dbid
  | .grants dbid' capabilities, dbid =>
    if dbid = dbid' ∧ dbid' ≠ masterDbid ∧ (⟨capabilities⟩ : Capabilities).isGrantable = true then
      some ⟨capabilities⟩
    else held dbid

/-- The node itself holds every capability once it was asked to open a stream. -/
theorem foldl_apply_master (asked : List GrantOp) (held : UInt64 → Option Capabilities) :
    asked.foldl apply held masterDbid =
      if .opens ∈ asked then some .all else held masterDbid := by
  induction asked generalizing held with
  | nil => simp
  | cons g rest ih =>
    rw [List.foldl_cons, ih]
    cases g with
    | opens => simp [apply]
    | grants dbid capabilities =>
      have hkeep : apply held (.grants dbid capabilities) masterDbid = held masterDbid := by
        rw [apply, if_neg]
        rintro ⟨hsame, hother, -⟩
        exact hother hsame.symm
      simp [hkeep]

end GrantOp

namespace ClockedRelay

/-- What an operation asks of a node: to open a stream, or to grant capabilities on one. -/
def asks (s : ClockedRelay) (node : NodeId) : RelayOp → Option GrantOp
  | .openStream opener => if opener = node then some .opens else none
  | .grant stream dbid capabilities =>
    match s.relay.streams.get? stream with
    | some opened => if opened.node = node then some (.grants dbid capabilities) else none
    | none => none
  | _ => none

/-- What a run asks of a node, in order. -/
def asked (s : ClockedRelay) (node : NodeId) : List RelayOp → List GrantOp
  | [] => []
  | op :: ops => (s.asks node op).toList ++ asked (s.step op).2 node ops

/-- The capabilities that an operation is allowed to grant to an id of a node. -/
def allowed (s : ClockedRelay) (node : NodeId) (dbid : UInt64) (op : RelayOp) :
    Option Capabilities :=
  match s.asks node op, (s.step op).1 with
  | some (.grants dbid' capabilities), .done => if dbid' = dbid then some ⟨capabilities⟩ else none
  | _, _ => none

/-- The capabilities that a run granted to an id of a node, in order. -/
def grantedTo (s : ClockedRelay) (node : NodeId) (dbid : UInt64) :
    List RelayOp → List Capabilities
  | [] => []
  | op :: ops => (s.allowed node dbid op).toList ++ grantedTo (s.step op).2 node dbid ops

/-! ## One operation -/

/-- The node of every stream holds every capability for itself. -/
def Mastered (r : Relay) : Prop :=
  ∀ stream opened, r.streams.get? stream = some opened →
    r.grants.get? opened.node masterDbid = some .all

theorem grants_closeStream (r : Relay) (stream : Nat) :
    (r.closeStream stream).grants = r.grants := by
  rcases r.closeStream_cases stream with ⟨heq, -⟩ | ⟨_, -, -, heq⟩
  · rw [heq]
  · rw [heq]
    rfl

/-- Streams, their counter and grants change only with operations on streams. -/
theorem streams_step (s : ClockedRelay) (op : RelayOp) (hopen : ∀ node, op ≠ .openStream node)
    (hclose : ∀ stream, op ≠ .closeStream stream) (hdrop : ∀ stream, op ≠ .dropStream stream)
    (hgrant : ∀ stream dbid capabilities, op ≠ .grant stream dbid capabilities) :
    (s.step op).2.relay.streams = s.relay.streams ∧
      (s.step op).2.relay.grants = s.relay.grants ∧
      (s.step op).2.relay.openStreams = s.relay.openStreams := by
  cases op with
  | openStream node => exact absurd rfl (hopen node)
  | closeStream stream => exact absurd rfl (hclose stream)
  | dropStream stream => exact absurd rfl (hdrop stream)
  | grant stream dbid capabilities => exact absurd rfl (hgrant stream dbid capabilities)
  | submit stream dbid capabilities raw =>
    cases haccepts : s.accepts (.submit stream dbid capabilities raw) with
    | some q =>
      rw [(s.enters_of_accepts _ q haccepts).2]
      exact ⟨rfl, rfl, rfl⟩
    | none =>
      rw [s.step_submit_of_not_accepts stream dbid capabilities raw haccepts]
      exact ⟨rfl, rfl, rfl⟩
  | take session count =>
    simp only [step, Relay.take]
    split <;> exact ⟨rfl, rfl, rfl⟩
  | respond session response =>
    simp only [step]
    split
    · next relay hok =>
      obtain ⟨-, rfl⟩ := (Relay.respond_eq_ok_iff _ _ _ _).1 hok
      exact ⟨rfl, rfl, rfl⟩
    · exact ⟨rfl, rfl, rfl⟩
  | detach session =>
    simp only [step, Relay.detach]
    split
    · exact ⟨rfl, rfl, rfl⟩
    · split
      · exact ⟨rfl, rfl, rfl⟩
      · split <;> exact ⟨rfl, rfl, rfl⟩
  | poll ticket =>
    simp only [step, Relay.poll]
    split
    · exact ⟨rfl, rfl, rfl⟩
    · split
      · exact ⟨rfl, rfl, rfl⟩
      · exact ⟨rfl, rfl, rfl⟩
      · split <;> exact ⟨rfl, rfl, rfl⟩
  | abandon ticket =>
    simp only [step, Relay.abandon]
    split <;> exact ⟨rfl, rfl, rfl⟩
  | attach node => exact ⟨rfl, rfl, rfl⟩
  | sweep => exact ⟨rfl, rfl, rfl⟩
  | advance duration => exact ⟨rfl, rfl, rfl⟩

/-- A grant is made or refused; which of the two depends on what is granted alone. -/
theorem step_grant (s : ClockedRelay) (h : Mastered s.relay) (stream : Nat)
    (dbid capabilities : UInt64) :
    (∃ opened, s.relay.streams.get? stream = some opened ∧
      (dbid ≠ masterDbid ∧ (⟨capabilities⟩ : Capabilities).isGrantable = true) ∧
      s.step (.grant stream dbid capabilities) =
        (.done, { s with relay := { s.relay with
          grants := ⟨s.relay.grants.table.set (opened.node, dbid) ⟨capabilities⟩⟩ } })) ∨
    ((∀ opened, s.relay.streams.get? stream = some opened →
        ¬(dbid ≠ masterDbid ∧ (⟨capabilities⟩ : Capabilities).isGrantable = true)) ∧
      ∃ cause, s.step (.grant stream dbid capabilities) = (.refused cause, s)) := by
  cases hopened : s.relay.streams.get? stream with
  | none =>
    right
    refine ⟨?_, PendingTable.streamClosed, ?_⟩
    · intro opened hsome
      cases hsome
    · simp only [step, Relay.grant, hopened]
  | some opened =>
    have hgrant := s.relay.grants.grant_of_master opened.node dbid capabilities
      (h stream opened hopened)
    by_cases hmay : dbid ≠ masterDbid ∧ (⟨capabilities⟩ : Capabilities).isGrantable = true
    · left
      rw [if_pos hmay] at hgrant
      refine ⟨opened, rfl, hmay, ?_⟩
      simp only [step, Relay.grant, hopened, hgrant, bind, Except.bind, pure, Except.pure]
    · right
      rw [if_neg hmay] at hgrant
      refine ⟨fun _ _ => hmay, .capabilityViolation dbid capabilities Capabilities.all.bits, ?_⟩
      simp only [step, Relay.grant, hopened, hgrant, bind, Except.bind]

/-- A stream after an operation was there before, or is a new one of the node that opens it. -/
theorem node_of_stream_step (s : ClockedRelay) (op : RelayOp) (stream : Nat) (opened : NodeStream)
    (h : (s.step op).2.relay.streams.get? stream = some opened) :
    op = .openStream opened.node ∨
      ∃ before, s.relay.streams.get? stream = some before ∧ before.node = opened.node := by
  have hclose : ∀ closed, (s.relay.closeStream closed).streams.get? stream = some opened →
      ∃ before, s.relay.streams.get? stream = some before ∧ before.node = opened.node := by
    intro closed hstream
    rcases s.relay.closeStream_cases closed with ⟨heq, -⟩ | ⟨before, hbefore, -, heq⟩
    · rw [heq] at hstream
      exact ⟨opened, hstream, rfl⟩
    · rw [heq] at hstream
      simp only [Relay.resolve, Table.get?_set] at hstream
      split at hstream
      · next hsame =>
        obtain rfl := Option.some.inj hstream
        exact ⟨before, hsame ▸ hbefore, rfl⟩
      · exact ⟨opened, hstream, rfl⟩
  cases op with
  | openStream node =>
    simp only [step, Relay.openStream, Table.get?_set] at h
    split at h
    · left
      rw [← Option.some.inj h]
    · exact Or.inr ⟨opened, h, rfl⟩
  | closeStream closed => exact Or.inr (hclose closed h)
  | dropStream dropped =>
    simp only [step, Relay.dropStream, Table.get?_erase] at h
    split at h
    · cases h
    · exact Or.inr (hclose dropped h)
  | grant on dbid capabilities =>
    right
    simp only [step] at h
    split at h
    · next relay hgrant =>
      obtain ⟨grants, rfl⟩ := Relay.grant_eq_ok relay on dbid capabilities hgrant
      exact ⟨opened, h, rfl⟩
    · exact ⟨opened, h, rfl⟩
  | _ =>
    rw [(streams_step s _ (by simp) (by simp) (by simp) (by simp)).1] at h
    exact Or.inr ⟨opened, h, rfl⟩

/-- A stream stays as it is unless it is closed or let go. -/
theorem get?_streams_step (s : ClockedRelay) (op : RelayOp) (stream : Nat)
    (hold : stream < s.relay.nextStream) (hclose : op ≠ .closeStream stream)
    (hdrop : op ≠ .dropStream stream) :
    (s.step op).2.relay.streams.get? stream = s.relay.streams.get? stream := by
  have hother : ∀ closed, closed ≠ stream →
      (s.relay.closeStream closed).streams.get? stream = s.relay.streams.get? stream := by
    intro closed hne
    rcases s.relay.closeStream_cases closed with ⟨heq, -⟩ | ⟨before, -, -, heq⟩
    · rw [heq]
    · rw [heq]
      exact (Table.get?_set _ _ _ _).trans (if_neg hne.symm)
  cases op with
  | openStream node => exact (Table.get?_set _ _ _ _).trans (if_neg (Nat.ne_of_lt hold))
  | closeStream closed => exact hother closed fun heq => hclose (heq ▸ rfl)
  | dropStream dropped =>
    have hne : dropped ≠ stream := fun heq => hdrop (heq ▸ rfl)
    exact ((Table.get?_erase _ _ _).trans (if_neg hne.symm)).trans (hother dropped hne)
  | grant on dbid capabilities =>
    simp only [step]
    split
    · next relay hgrant =>
      obtain ⟨grants, rfl⟩ := Relay.grant_eq_ok relay on dbid capabilities hgrant
      rfl
    · rfl
  | _ => rw [(streams_step s _ (by simp) (by simp) (by simp) (by simp)).1]

/-- An operation does to the grants of a node what it asks of the node. -/
theorem get?_grants_step (s : ClockedRelay) (h : Mastered s.relay) (op : RelayOp) (node : NodeId) :
    (s.step op).2.relay.grants.get? node =
      (s.asks node op).toList.foldl GrantOp.apply (s.relay.grants.get? node) := by
  funext dbid
  cases op with
  | openStream opener =>
    show (s.relay.grants.openNode opener).get? node dbid = _
    rw [Grants.get?_openNode, asks]
    by_cases hnode : opener = node
    · simp [hnode, GrantOp.apply]
    · simp [hnode, Ne.symm hnode]
  | grant stream dbid' capabilities =>
    rcases s.step_grant h stream dbid' capabilities with
      ⟨opened, hopened, hmay, hstep⟩ | ⟨hnot, cause, hstep⟩
    · rw [hstep]
      show (s.relay.grants.table.set (opened.node, dbid') _).get? (node, dbid) = _
      rw [Table.get?_set]
      simp only [asks, hopened]
      by_cases hnode : opened.node = node
      · by_cases hdbid : dbid = dbid'
        · simp [hnode, hdbid, GrantOp.apply, hmay]
        · simp [hnode, hdbid, GrantOp.apply, Grants.get?]
      · simp [hnode, Ne.symm hnode, Grants.get?]
    · rw [hstep, asks]
      split
      · next opened hopened =>
        split
        · simp [GrantOp.apply, hnot opened hopened]
        · rfl
      · rfl
  | closeStream stream =>
    show (s.relay.closeStream stream).grants.get? node dbid = _
    rw [grants_closeStream]
    rfl
  | dropStream stream =>
    show (s.relay.closeStream stream).grants.get? node dbid = _
    rw [grants_closeStream]
    rfl
  | _ =>
    rw [(streams_step s _ (by simp) (by simp) (by simp) (by simp)).2.1]
    rfl

/-- The node of every stream still holds every capability after an operation. -/
theorem mastered_step (s : ClockedRelay) (h : Mastered s.relay) (op : RelayOp) :
    Mastered (s.step op).2.relay := by
  intro stream opened hopened
  rw [get?_grants_step s h, GrantOp.foldl_apply_master]
  rcases s.node_of_stream_step op stream opened hopened with rfl | ⟨before, hbefore, hnode⟩
  · simp [asks]
  · split
    · rfl
    · rw [← hnode]
      exact h stream before hbefore

theorem grant_of_asks (s : ClockedRelay) (node : NodeId) (op : RelayOp)
    (dbid capabilities : UInt64) (h : s.asks node op = some (.grants dbid capabilities)) :
    ∃ stream opened, op = .grant stream dbid capabilities ∧
      s.relay.streams.get? stream = some opened ∧ opened.node = node := by
  cases op with
  | openStream opener =>
    simp only [asks] at h
    split at h <;> cases h
  | grant stream dbid' capabilities' =>
    simp only [asks] at h
    split at h
    · next opened hopened =>
      split at h
      · next hnode =>
        cases h
        exact ⟨stream, opened, rfl, hopened, hnode⟩
      · cases h
    · cases h
  | _ => cases h

/-- A grant to an id is allowed just if it is grantable and the id is not that of the node. -/
theorem allowed_eq_some_iff (s : ClockedRelay) (h : Mastered s.relay) (node : NodeId)
    (dbid : UInt64) (op : RelayOp) (c : Capabilities) :
    s.allowed node dbid op = some c ↔
      s.asks node op = some (.grants dbid c.bits) ∧ dbid ≠ masterDbid ∧ c.isGrantable = true := by
  rw [allowed]
  cases hasks : s.asks node op with
  | none => simp
  | some asking =>
    cases asking with
    | opens => simp
    | grants dbid' capabilities =>
      obtain ⟨stream, opened, rfl, hopened, -⟩ := s.grant_of_asks node op _ _ hasks
      rcases s.step_grant h stream dbid' capabilities with
        ⟨_, _, hmay, hstep⟩ | ⟨hnot, _, hstep⟩
      · rw [hstep]
        constructor
        · intro hallowed
          simp only [Option.ite_none_right_eq_some, Option.some.injEq] at hallowed
          obtain ⟨rfl, rfl⟩ := hallowed
          exact ⟨rfl, hmay⟩
        · rintro ⟨hsame, -⟩
          cases hsame
          simp
      · rw [hstep]
        constructor
        · intro hallowed
          cases hallowed
        · rintro ⟨hsame, hmay⟩
          cases hsame
          exact absurd hmay (hnot opened hopened)

/-- An id of a node holds what an operation allows it, or else what it held before. -/
theorem get?_grants_allowed (s : ClockedRelay) (h : Mastered s.relay) (op : RelayOp)
    (node : NodeId) (dbid : UInt64) (hdbid : dbid ≠ masterDbid) :
    (s.step op).2.relay.grants.get? node dbid =
      (s.allowed node dbid op).or (s.relay.grants.get? node dbid) := by
  rw [get?_grants_step s h]
  cases hallowed : s.allowed node dbid op with
  | some c =>
    obtain ⟨hasks, hother, hgrantable⟩ := (s.allowed_eq_some_iff h node dbid op c).1 hallowed
    simp [hasks, GrantOp.apply, hother, hgrantable]
  | none =>
    have hnot : ∀ c : Capabilities, ¬(s.asks node op = some (.grants dbid c.bits) ∧
        dbid ≠ masterDbid ∧ c.isGrantable = true) := by
      intro c hall
      rw [(s.allowed_eq_some_iff h node dbid op c).2 hall] at hallowed
      cases hallowed
    cases hasks : s.asks node op with
    | none => rfl
    | some asking =>
      cases asking with
      | opens => simp [GrantOp.apply, hdbid]
      | grants dbid' capabilities =>
        simp only [Option.toList_some, List.foldl_cons, List.foldl_nil, GrantOp.apply,
          Option.none_or, ite_eq_right_iff]
        rintro ⟨rfl, hother, hgrantable⟩
        exact absurd ⟨hasks, hother, hgrantable⟩ (hnot ⟨capabilities⟩)

/-! ## Runs -/

theorem mastered_start (settings : RelaySettings) (now : Nat) :
    Mastered (start settings now).relay := by
  intro stream opened hopened
  cases hopened

/-- A run does to the grants of a node what it asks of the node. -/
theorem get?_grants_run (s : ClockedRelay) (h : Mastered s.relay) (node : NodeId)
    (ops : List RelayOp) :
    (s.run ops).relay.grants.get? node =
      (s.asked node ops).foldl GrantOp.apply (s.relay.grants.get? node) := by
  induction ops generalizing s with
  | nil => rfl
  | cons op ops ih =>
    rw [run_cons, ih _ (s.mastered_step h op), get?_grants_step s h, asked, List.foldl_append]

/-- An id of a node other than its own holds what it was granted last. -/
theorem get?_grants_last (s : ClockedRelay) (h : Mastered s.relay) (node : NodeId)
    (dbid : UInt64) (hdbid : dbid ≠ masterDbid) (ops : List RelayOp) :
    (s.run ops).relay.grants.get? node dbid =
      (s.grantedTo node dbid ops).getLast?.or (s.relay.grants.get? node dbid) := by
  induction ops generalizing s with
  | nil => rfl
  | cons op ops ih =>
    rw [run_cons, ih _ (s.mastered_step h op), get?_grants_allowed s h op node dbid hdbid,
      grantedTo]
    cases s.allowed node dbid op with
    | none => rfl
    | some c =>
      cases hlast : (grantedTo (s.step op).2 node dbid ops).getLast? <;>
        simp [List.getLast?_cons, hlast]

/-- Whatever an id of a node other than its own is granted is grantable. -/
theorem isGrantable_of_grantedTo (s : ClockedRelay) (h : Mastered s.relay) (node : NodeId)
    (dbid : UInt64) (ops : List RelayOp) (c : Capabilities) (hc : c ∈ s.grantedTo node dbid ops) :
    c.isGrantable = true := by
  induction ops generalizing s with
  | nil => cases hc
  | cons op ops ih =>
    rw [grantedTo, List.mem_append, Option.mem_toList] at hc
    rcases hc with hc | hc
    · exact ((s.allowed_eq_some_iff h node dbid op c).1 hc).2.2
    · exact ih _ (s.mastered_step h op) hc

/-- A node was asked to open a stream just if one was opened. -/
theorem opens_mem_asked (s : ClockedRelay) (node : NodeId) (ops : List RelayOp) :
    .opens ∈ s.asked node ops ↔ .openStream node ∈ ops := by
  induction ops generalizing s with
  | nil => simp [asked]
  | cons op ops ih =>
    have hop : s.asks node op = some .opens ↔ .openStream node = op := by
      cases op with
      | openStream opener => simp [asks, eq_comm]
      | grant stream dbid capabilities =>
        simp only [asks, reduceCtorEq, iff_false]
        split
        · split <;> simp
        · simp
      | _ => simp [asks]
    rw [asked, List.mem_append, Option.mem_toList, List.mem_cons, ih, ← hop]

end ClockedRelay

end SigningGateway
