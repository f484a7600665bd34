import Mathlib.Data.List.Nodup
import SigningGateway.Launch.Launcher
import SigningGateway.Proofs.Launch.Ports

/-!
# Leases and launches

A run of the launcher.  Launches begin and end in any order: between the lease of its port and the
answer of the store to a launch, and while its process starts and runs, other launches take their
steps.  The run logs what it answers, and the log tells which launches are in progress.

    begin = claim, then equip                                                            (begin_eq)
    Leased settings launches l → Leased settings (launches after op) (l after op)    (Leased.apply)
    the leased ports are the ports of the launches in progress              (leases_of_launches)
-/

namespace SigningGateway

/-! ## The two halves of the beginning of a launch -/

namespace Launcher

/-- The number and the port of a new launch, if there is a free port. -/
def claim (l : Launcher) (node : NodeId) : Except Error (Nat × UInt16) × Launcher :=
  match l.ports.lease node with
  | (none, ports) => (.error noFreePort, { l with ports })
  | (some port, ports) =>
    let (launch, l) := l.enter node port ports
    (.ok (launch, port), l)

/-- Has the store issue the credential of a launch that holds a port. -/
def equip (l : Launcher) (launch : Nat) (node : NodeId) (port : UInt16) (store : Store)
    (fault : Option WriteFault) (now : Moment) (e : Entropy) :
    (Except Error Command × Launcher × Store) × Entropy :=
  match store.issueNodeCredential fault now node e with
  | (.error cause, e) => ((.error (noCredential cause), l.release launch, store), e)
  | (.ok (credential, store), e) =>
    match command l.settings node port credential with
    | .error cause => ((.error cause, l.release launch, store), e)
    | .ok c => ((.ok c, l, store), e)

/-- A launch begins with its port and goes on with its credential. -/
theorem begin_eq (l : Launcher) (store : Store) (fault : Option WriteFault) (now : Moment)
    (node : NodeId) (e : Entropy) : l.begin store fault now node e =
      match l.claim node with
      | (.error cause, l) => ((.error cause, l, store), e)
      | (.ok (launch, port), l) =>
        let r := l.equip launch node port store fault now e
        ((r.1.1.map fun c => (launch, c), r.1.2), r.2) := by
  rcases hlease : l.ports.lease node with ⟨_ | port, ports⟩
  · simp only [begin, claim, hlease]
  · simp only [begin, claim, hlease, equip]
    rcases store.issueNodeCredential fault now node e with ⟨cause | ⟨credential, store'⟩, e'⟩
    · rfl
    · dsimp only
      cases command (l.enter node port ports).2.settings node port credential <;> rfl

/-- A launch that holds a port is refused in other words than one that finds none. -/
theorem equip_ne_noFreePort (l : Launcher) (launch : Nat) (node : NodeId) (port : UInt16)
    (store : Store) (fault : Option WriteFault) (now : Moment) (e : Entropy) :
    (l.equip launch node port store fault now e).1.1 ≠ .error noFreePort := by
  unfold equip
  rcases store.issueNodeCredential fault now node e with ⟨cause | ⟨credential, store'⟩, e'⟩
  · simp only [noCredential, noFreePort, ne_eq, Except.error.injEq, Error.scheduling.injEq]
    intro h
    have hfirst := congrArg (fun s => s.toList.head?) h
    simp at hfirst
  · dsimp only [command, Certificate.ofBytes]
    cases Json.decodeBytes Certificate.decode credential.certificate with
    | ok c => simp [bind, Except.bind, pure, Except.pure]
    | error cause => simp [bind, Except.bind, Certificate.malformed, noFreePort]

/-- Only for want of a port is a launch refused as if there were none. -/
theorem begin_refused_iff (l : Launcher) (store : Store) (fault : Option WriteFault) (now : Moment)
    (node : NodeId) (e : Entropy) : (l.begin store fault now node e).1.1 = .error noFreePort ↔
      (l.claim node).1 = .error noFreePort := by
  rw [begin_eq]
  rcases l.claim node with ⟨cause | ⟨launch, port⟩, l'⟩
  · simp
  · have hne := l'.equip_ne_noFreePort launch node port store fault now e
    dsimp only
    cases hanswer : (l'.equip launch node port store fault now e).1.1 with
    | ok c => simp [Except.map]
    | error cause =>
      rw [hanswer] at hne
      simpa [Except.map] using hne

end Launcher

/-! ## Runs -/

/-- What happens to the launcher from outside. -/
inductive LaunchOp
  /-- A launch of a node begins. -/
  | claim (node : NodeId)
  /-- The store, in some state, is asked for the credential of a launch; its write may fail. -/
  | equip (launch : Nat) (store : Store) (fault : Option WriteFault) (now : Moment) (e : Entropy)
  /-- The binary cannot be started. -/
  | spawnFailed (launch : Nat) (reason : String)
  /-- The process ends before it accepts a connection. -/
  | exitedEarly (launch : Nat) (status : ExitStatus)
  /-- The process accepts a connection. -/
  | accepted (launch : Nat)
  /-- The scheduler gives the launch up, since its time is over. -/
  | giveUp (launch : Nat)
  /-- The process that was up ends. -/
  | exited (launch : Nat)

inductive LaunchAnswer
  | done
  | begun (launch : Nat) (port : UInt16)
  | equipped (command : Command)
  | up (endpoint : Option String)
  | failed (cause : Error)
  deriving DecidableEq

/-- A launch in progress, or the process that came of it. -/
structure OngoingLaunch where
  number : Nat
  node : NodeId
  port : UInt16
  deriving DecidableEq

/-- The launch that ends with an operation. -/
def LaunchOp.ends? : LaunchOp → LaunchAnswer → Option Nat
  | .equip launch .., .failed _ => some launch
  | .spawnFailed launch _, _ | .exitedEarly launch _, _ | .giveUp launch, _ | .exited launch, _ =>
    some launch
  | _, _ => none

/-- Takes a launch out of those in progress. -/
def dropLaunch (launches : List OngoingLaunch) (number : Nat) : List OngoingLaunch :=
  launches.filter fun x => x.number ≠ number

@[simp] theorem mem_dropLaunch (launches : List OngoingLaunch) (number : Nat) (x : OngoingLaunch) :
    x ∈ dropLaunch launches number ↔ x ∈ launches ∧ x.number ≠ number := by
  simp [dropLaunch]

/-- The launches in progress after an operation that was answered. -/
def ongoingAfter (launches : List OngoingLaunch) : LaunchOp × LaunchAnswer → List OngoingLaunch
  | (.claim node, .begun launch port) => launches ++ [⟨launch, node, port⟩]
  | (op, answer) =>
    match op.ends? answer with
    | some launch => dropLaunch launches launch
    | none => launches

/-- The launches in progress, and the processes that run, at the end of a log. -/
def ongoing (log : List (LaunchOp × LaunchAnswer)) : List OngoingLaunch :=
  log.foldl ongoingAfter []

namespace Launcher

def apply (l : Launcher) : LaunchOp → LaunchAnswer × Launcher
  | .claim node =>
    match l.claim node with
    | (.ok (launch, port), l) => (.begun launch port, l)
    | (.error cause, l) => (.failed cause, l)
  | .equip launch store fault now e =>
    match l.processes.get? launch with
    | none => (.done, l)
    | some p =>
      match l.equip launch p.node p.port store fault now e with
      | ((.ok c, l, _), _) => (.equipped c, l)
      | ((.error cause, l, _), _) => (.failed cause, l)
  | .spawnFailed launch reason =>
    let (cause, l) := l.spawnFailed launch reason
    (.failed cause, l)
  | .exitedEarly launch status =>
    let (cause, l) := l.exitedEarly launch status
    (.failed cause, l)
  | .accepted launch =>
    let (endpoint, l) := l.accepted launch
    (.up endpoint, l)
  | .giveUp launch | .exited launch => (.done, l.release launch)

/-- The launcher with another value of the port counter. -/
def withCounter (l : Launcher) (counter : UInt16) : Launcher :=
  { l with ports := { l.ports with next := counter } }

end Launcher

/-- A launcher with the log of its run. -/
structure LauncherRun where
  launcher : Launcher
  log : List (LaunchOp × LaunchAnswer)

namespace LauncherRun

def start (settings : LauncherSettings) (counter : UInt16) : LauncherRun :=
  ⟨(Launcher.start settings).withCounter counter, []⟩

/-- Applies an operation and logs it. -/
def step (s : LauncherRun) (op : LaunchOp) : LauncherRun :=
  let (answer, launcher) := s.launcher.apply op
  ⟨launcher, s.log ++ [(op, answer)]⟩

def run (s : LauncherRun) (ops : List LaunchOp) : LauncherRun := ops.foldl step s

end LauncherRun

/-! ## Leases of launches -/

/-- A new value of its own behind a row of different ones. -/
theorem nodup_map_append_singleton {α β : Type} (f : α → β) (xs : List α) (x : α)
    (h : (xs.map f).Nodup) (hx : ∀ y ∈ xs, f y ≠ f x) : ((xs ++ [x]).map f).Nodup := by
  rw [List.map_append, List.nodup_append]
  refine ⟨h, List.nodup_singleton _, fun a ha b hb => ?_⟩
  obtain ⟨y, hy, rfl⟩ := List.mem_map.1 ha
  obtain rfl := List.mem_singleton.1 hb
  exact hx y hy

/-- The launches hold their ports, and nobody else holds one. -/
structure Leased (settings : LauncherSettings) (launches : List OngoingLaunch) (l : Launcher) :
    Prop where
  low : l.ports.low = settings.portMin
  high : l.ports.high = settings.portMax
  mem_iff : ∀ x, x ∈ launches ↔ ∃ p, l.processes.get? x.number = some p ∧ p.node = x.node ∧
    p.port = x.port
  numbers : (launches.map (·.number)).Nodup
  fresh : ∀ x ∈ launches, x.number < l.nextProcess
  lease_iff : ∀ port node, l.ports.leases.get? port = some node ↔
    ∃ x ∈ launches, x.port = port ∧ x.node = node
  ports : (launches.map (·.port)).Nodup
  inRange : ∀ x ∈ launches, l.ports.inRange x.port = true

namespace Leased

variable {settings : LauncherSettings} {launches : List OngoingLaunch} {l : Launcher}

theorem start (settings : LauncherSettings) (counter : UInt16) :
    Leased settings [] (LauncherRun.start settings counter).launcher where
  low := rfl
  high := rfl
  mem_iff x := by simp [LauncherRun.start, Launcher.withCounter, Launcher.start]
  numbers := List.nodup_nil
  fresh := by simp
  lease_iff port node := by
    simp [LauncherRun.start, Launcher.withCounter, Launcher.start, PortPool.start]
  ports := List.nodup_nil
  inRange := by simp

section
variable (h : Leased settings launches l)
include h

/-- The counter matters to nobody who holds a port. -/
theorem withCounter (counter : UInt16) : Leased settings launches (l.withCounter counter) :=
  ⟨h.low, h.high, h.mem_iff, h.numbers, h.fresh, h.lease_iff, h.ports, h.inRange⟩

theorem get?_of_mem (x : OngoingLaunch) (hx : x ∈ launches) :
    l.ports.leases.get? x.port = some x.node :=
  (h.lease_iff _ _).2 ⟨x, hx, rfl, rfl⟩

theorem isSome_get?_iff (port : UInt16) :
    (l.ports.leases.get? port).isSome ↔ ∃ x ∈ launches, x.port = port := by
  constructor
  · intro hsome
    obtain ⟨node, hnode⟩ := Option.isSome_iff_exists.1 hsome
    obtain ⟨x, hx, hport, -⟩ := (h.lease_iff _ _).1 hnode
    exact ⟨x, hx, hport⟩
  · rintro ⟨x, hx, rfl⟩
    rw [h.get?_of_mem x hx]
    rfl

theorem mem_of_get? (launch : Nat) (p : NodeProcess) (hp : l.processes.get? launch = some p) :
    ⟨launch, p.node, p.port⟩ ∈ launches :=
  (h.mem_iff _).2 ⟨p, hp, rfl, rfl⟩

theorem eq_of_number (x y : OngoingLaunch) (hx : x ∈ launches) (hy : y ∈ launches)
    (hnumber : x.number = y.number) : x = y :=
  List.inj_on_of_nodup_map h.numbers hx hy hnumber

theorem eq_of_port (x y : OngoingLaunch) (hx : x ∈ launches) (hy : y ∈ launches)
    (hport : x.port = y.port) : x = y :=
  List.inj_on_of_nodup_map h.ports hx hy hport

/-! ### Steps -/

/-- A launch that takes a free port of the range. -/
theorem enter (node : NodeId) (port next : UInt16) (hport : l.ports.inRange port = true)
    (hfree : l.ports.leases.contains port = false) :
    Leased settings (launches ++ [⟨l.nextProcess, node, port⟩])
      (l.enter node port { l.ports with next, leases := l.ports.leases.set port node }).2 := by
  have hother : ∀ x ∈ launches, x.number ≠ l.nextProcess ∧ x.port ≠ port := fun x hx => by
    refine ⟨Nat.ne_of_lt (h.fresh x hx), ?_⟩
    rintro rfl
    rw [Table.contains, h.get?_of_mem x hx] at hfree
    cases hfree
  refine ⟨h.low, h.high, fun x => ?_,
    nodup_map_append_singleton _ _ _ h.numbers fun x hx => (hother x hx).1, fun x hx => ?_,
    fun port' node' => ?_, nodup_map_append_singleton _ _ _ h.ports fun x hx => (hother x hx).2,
    fun x hx => ?_⟩
  · simp only [Launcher.enter, Table.get?_set, List.mem_append, List.mem_singleton]
    constructor
    · rintro (hx | rfl)
      · rw [if_neg (hother x hx).1]
        exact (h.mem_iff x).1 hx
      · exact ⟨⟨node, port, false⟩, if_pos rfl, rfl, rfl⟩
    · rintro ⟨p, hp, hnode, hp'⟩
      split at hp
      · next hnumber =>
        obtain rfl := Option.some.inj hp
        obtain ⟨number, node', port'⟩ := x
        obtain ⟨rfl, rfl, rfl⟩ : number = _ ∧ node = node' ∧ port = port' := ⟨hnumber, hnode, hp'⟩
        exact Or.inr rfl
      · exact Or.inl ((h.mem_iff x).2 ⟨p, hp, hnode, hp'⟩)
  · rcases List.mem_append.1 hx with hx | hx
    · exact Nat.lt_succ_of_lt (h.fresh x hx)
    · obtain rfl := List.mem_singleton.1 hx
      exact Nat.lt_succ_self _
  · simp only [Launcher.enter, Table.get?_set]
    split
    · next heq =>
      subst heq
      constructor
      · intro hnode
        exact ⟨_, List.mem_append_right _ List.mem_cons_self, rfl, Option.some.inj hnode⟩
      · rintro ⟨x, hx, hp, rfl⟩
        rcases List.mem_append.1 hx with hx | hx
        · exact absurd hp (hother x hx).2
        · rw [List.mem_singleton.1 hx]
    · next hne =>
      rw [h.lease_iff]
      refine exists_congr fun x => and_congr_left fun ⟨hp, _⟩ => ?_
      have hnew : x ≠ ⟨l.nextProcess, node, port⟩ := fun heq => hne (by rw [← hp, heq])
      simp [hnew]
  · rcases List.mem_append.1 hx with hx | hx
    · exact h.inRange x hx
    · rw [List.mem_singleton.1 hx]
      exact hport

/-- A new launch gets a free port of the range, or there is none. -/
theorem claim_cases (hrange : settings.portMin ≤ settings.portMax) (node : NodeId) :
    (∃ port l', l.claim node = (.ok (l.nextProcess, port), l') ∧ l.ports.inRange port = true ∧
        l.ports.leases.contains port = false ∧
        Leased settings (launches ++ [⟨l.nextProcess, node, port⟩]) l') ∨
      ∃ l', l.claim node = (.error Launcher.noFreePort, l') ∧
        (∀ port, l.ports.inRange port = true → l.ports.leases.contains port = true) ∧
        Leased settings launches l' := by
  have hpool : l.ports.IsRange := by rwa [PortPool.IsRange, h.low, h.high]
  rcases hpool.lease_cases node with ⟨port, next, hport, hfree, heq⟩ | ⟨hall, next, heq⟩
  · left
    refine ⟨port, _, ?_, hport, hfree, h.enter node port next hport hfree⟩
    simp only [Launcher.claim, heq]
    rfl
  · right
    refine ⟨l.withCounter next, ?_, hall, h.withCounter next⟩
    simp only [Launcher.claim, heq]
    rfl

/-- A launch that ends, or a process, gives its port back. -/
theorem release (launch : Nat) :
    Leased settings (dropLaunch launches launch) (l.release launch) := by
  have hsub : dropLaunch launches launch ⊆ launches := List.filter_subset_self _
  cases hp : l.processes.get? launch with
  | none =>
    have hkept : dropLaunch launches launch = launches := by
      refine List.filter_eq_self.2 fun x hx => ?_
      obtain ⟨p, hx, -⟩ := (h.mem_iff x).1 hx
      have hne : x.number ≠ launch := by
        rintro rfl
        rw [hp] at hx
        cases hx
      simpa using hne
    rw [hkept, Launcher.release, hp]
    exact h
  | some p =>
    have hmem := h.mem_of_get? launch p hp
    have hrelease : l.release launch =
        { l with ports := l.ports.release p.port, processes := l.processes.erase launch } := by
      rw [Launcher.release, hp]
    rw [hrelease]
    refine ⟨h.low, h.high, fun x => ?_, h.numbers.sublist ((List.filter_sublist).map _),
      fun x hx => h.fresh x (hsub hx), fun port node => ?_,
      h.ports.sublist ((List.filter_sublist).map _), fun x hx => h.inRange x (hsub hx)⟩
    · rw [mem_dropLaunch, Table.get?_erase, h.mem_iff]
      split
      · next heq => simp [heq]
      · next hne => simp [hne]
    · rw [PortPool.release, Table.get?_erase]
      split
      · next heq =>
        subst heq
        simp only [reduceCtorEq, false_iff, not_exists, not_and]
        intro x hx hport
        obtain ⟨hx, hne⟩ := (mem_dropLaunch _ _ _).1 hx
        exact absurd (congrArg (·.number) (h.eq_of_port x _ hx hmem hport)) hne
      · next hne =>
        rw [h.lease_iff]
        refine exists_congr fun x => and_congr_left fun hx => ?_
        obtain ⟨hport, -⟩ := hx
        rw [mem_dropLaunch]
        refine ⟨fun hx => ⟨hx, fun hnumber => hne ?_⟩, And.left⟩
        rw [← hport, h.eq_of_number x _ hx hmem hnumber]

theorem accepted (launch : Nat) : Leased settings launches (l.accepted launch).2 := by
  cases hp : l.processes.get? launch with
  | none =>
    rw [Launcher.accepted, hp]
    exact h
  | some p =>
    have haccepted : (l.accepted launch).2 =
        { l with processes := l.processes.set launch { p with up := true } } := by
      rw [Launcher.accepted, hp]
    rw [haccepted]
    refine ⟨h.low, h.high, fun x => ?_, h.numbers, h.fresh, h.lease_iff, h.ports, h.inRange⟩
    rw [h.mem_iff, Table.get?_set]
    split
    · next heq => simp [heq, hp]
    · rfl

/-- The store issues the credential and the launch goes on, or the launch ends. -/
theorem equip_cases (launch : Nat) (node : NodeId) (port : UInt16) (store : Store)
    (fault : Option WriteFault) (now : Moment) (e : Entropy) :
    (∃ c, (l.equip launch node port store fault now e).1.1 = .ok c ∧
        Leased settings launches (l.equip launch node port store fault now e).1.2.1) ∨
      ∃ cause, (l.equip launch node port store fault now e).1.1 = .error cause ∧
        Leased settings (dropLaunch launches launch)
          (l.equip launch node port store fault now e).1.2.1 := by
  unfold Launcher.equip
  rcases store.issueNodeCredential fault now node e with ⟨cause | ⟨credential, store'⟩, e'⟩
  · exact Or.inr ⟨_, rfl, h.release launch⟩
  · dsimp only
    cases Launcher.command l.settings node port credential with
    | error cause => exact Or.inr ⟨_, rfl, h.release launch⟩
    | ok c => exact Or.inl ⟨c, rfl, h⟩

/-- Whatever happens, the launches that the answer leaves in progress hold their ports. -/
theorem apply (hrange : settings.portMin ≤ settings.portMax) (op : LaunchOp) :
    Leased settings (ongoingAfter launches (op, (l.apply op).1)) (l.apply op).2 := by
  cases op with
  | claim node =>
    rcases h.claim_cases hrange node with ⟨port, l', heq, -, -, hl'⟩ | ⟨l', heq, -, hl'⟩
    · simpa only [Launcher.apply, heq, ongoingAfter] using hl'
    · simpa only [Launcher.apply, heq, ongoingAfter, LaunchOp.ends?] using hl'
  | equip launch store fault now e =>
    cases hp : l.processes.get? launch with
    | none => simpa only [Launcher.apply, hp, ongoingAfter, LaunchOp.ends?] using h
    | some p =>
      have hcases := h.equip_cases launch p.node p.port store fault now e
      rcases heq : l.equip launch p.node p.port store fault now e with ⟨⟨answer, l', store'⟩, e'⟩
      rw [heq] at hcases
      rcases hcases with ⟨c, rfl, hl'⟩ | ⟨cause, rfl, hl'⟩
      · simpa only [Launcher.apply, hp, heq, ongoingAfter, LaunchOp.ends?] using hl'
      · simpa only [Launcher.apply, hp, heq, ongoingAfter, LaunchOp.ends?] using hl'
  | spawnFailed launch reason => exact h.release launch
  | exitedEarly launch status => exact h.release launch
  | accepted launch => exact h.accepted launch
  | giveUp launch => exact h.release launch
  | exited launch => exact h.release launch

end

end Leased

namespace LauncherRun

theorem leased_run {settings : LauncherSettings} (hrange : settings.portMin ≤ settings.portMax)
    (ops : List LaunchOp) (s : LauncherRun) (h : Leased settings (ongoing s.log) s.launcher) :
    Leased settings (ongoing (s.run ops).log) (s.run ops).launcher := by
  induction ops generalizing s with
  | nil => exact h
  | cons op ops ih =>
    refine ih (s.step op) ?_
    have hlog : ongoing (s.step op).log =
        ongoingAfter (ongoing s.log) (op, (s.launcher.apply op).1) := by
      simp [step, ongoing, List.foldl_append]
    rw [hlog]
    exact h.apply hrange op

/-- In every run of launches that begin and end in any order: those in progress, with the processes
that run, hold different ports of the range, and no other port is leased.  A new launch is refused
with `no free node ports` just if every port of the range is leased, wherever the counter stands, and
gets a free port of the range otherwise. -/
theorem leases_of_launches (settings : LauncherSettings) (counter : UInt16) (ops : List LaunchOp)
    (hrange : settings.portMin ≤ settings.portMax) :
    let s := (start settings counter).run ops
    let leases := s.launcher.ports.leases
    let allLeased := ∀ port, settings.portMin ≤ port → port ≤ settings.portMax →
      leases.contains port = true
    leases.keys.Perm ((ongoing s.log).map (·.port)) ∧ ((ongoing s.log).map (·.port)).Nodup ∧
      s.launcher.portsInUse = (ongoing s.log).length ∧
      (∀ x ∈ ongoing s.log, settings.portMin ≤ x.port ∧ x.port ≤ settings.portMax ∧
        leases.get? x.port = some x.node) ∧
      ∀ (counter : UInt16) (node : NodeId),
        let l := s.launcher.withCounter counter
        ((l.apply (.claim node)).1 = .failed (.scheduling "no free node ports") ↔ allLeased) ∧
        (¬allLeased → ∃ launch port, (l.apply (.claim node)).1 = .begun launch port ∧
          settings.portMin ≤ port ∧ port ≤ settings.portMax ∧ leases.contains port = false ∧
          ∀ x ∈ ongoing s.log, x.number ≠ launch) ∧
        ∀ (store : Store) (fault : Option WriteFault) (now : Moment) (e : Entropy),
          (l.begin store fault now node e).1.1 = .error (.scheduling "no free node ports") ↔
            allLeased := by
  intro s leases allLeased
  have hs : Leased settings (ongoing s.log) s.launcher :=
    leased_run hrange ops _ (Leased.start settings counter)
  have hin : ∀ port, s.launcher.ports.inRange port = true ↔
      settings.portMin ≤ port ∧ port ≤ settings.portMax := fun port => by
    rw [PortPool.inRange, hs.low, hs.high, Bool.and_eq_true, decide_eq_true_eq, decide_eq_true_eq]
  have hkeys : leases.keys.Perm ((ongoing s.log).map (·.port)) := by
    refine (List.perm_ext_iff_of_nodup leases.nodup_keys hs.ports).2 fun port => ?_
    exact (leases.mem_keys_iff port).trans ((hs.isSome_get?_iff port).trans List.mem_map.symm)
  refine ⟨hkeys, hs.ports, ?_, fun x hx => ?_, fun counter node => ?_⟩
  · have hlength := hkeys.length_eq
    rwa [Table.keys, List.length_map, List.length_map] at hlength
  · obtain ⟨hlow, hhigh⟩ := (hin _).1 (hs.inRange x hx)
    exact ⟨hlow, hhigh, hs.get?_of_mem x hx⟩
  · rcases (hs.withCounter counter).claim_cases hrange node with
      ⟨port, l', heq, hport, hfree, -⟩ | ⟨l', heq, hall, -⟩
    · obtain ⟨hlow, hhigh⟩ := (hin port).1 hport
      have hsome : ¬allLeased := fun hall => by
        have hleased : leases.contains port = true := hall port hlow hhigh
        exact Bool.false_ne_true (hfree.symm.trans hleased)
      refine ⟨?_, fun _ => ⟨s.launcher.nextProcess, port, ?_, hlow, hhigh, hfree, fun x hx => ?_⟩,
        fun store fault now e => (Launcher.begin_refused_iff ..).trans ?_⟩
      · simp [Launcher.apply, heq, hsome]
      · simp only [Launcher.apply, heq]
        rfl
      · exact Nat.ne_of_lt (hs.fresh x hx)
      · simp [heq, hsome]
    · have hall' : allLeased := fun port hlow hhigh => hall port ((hin port).2 ⟨hlow, hhigh⟩)
      refine ⟨?_, fun hsome => absurd hall' hsome,
        fun store fault now e => (Launcher.begin_refused_iff ..).trans ?_⟩
      · simp [Launcher.apply, heq, hall', Launcher.noFreePort]
      · simp [heq, hall']

/-- Two launches take the last two ports of all, and a third one is refused; when the first one is
given up, its port is the one that any counter leads to. -/
theorem leases_of_last_ports :
    let settings : LauncherSettings := { portMin := 65534, portMax := 65535 }
    let node : NodeId := ⟨List.replicate 32 7, by decide⟩
    let ops := [.claim node, .claim node, .claim node, .giveUp 1]
    settings.portMin ≤ settings.portMax ∧
      (((start settings 7).run (ops.take 2)).launcher.apply (.claim node)).1 =
        .failed (.scheduling "no free node ports") ∧
      ((start settings 7).run ops).launcher.ports.leases.keys.Perm [65535] ∧
      ∀ counter : UInt16, ∃ launch port,
        ((((start settings 7).run ops).launcher.withCounter counter).apply (.claim node)).1 =
            .begun launch port ∧
          65534 ≤ port ∧ ((start settings 7).run ops).launcher.ports.leases.contains port = false := by
  intro settings node ops
  have hrange : settings.portMin ≤ settings.portMax := by decide
  obtain ⟨hkeys, -, -, -, hclaims⟩ := leases_of_launches settings 7 ops hrange
  have hports : (ongoing ((start settings 7).run ops).log).map (·.port) = [65535] := by
    decide +kernel
  have hfree : ((start settings 7).run ops).launcher.ports.leases.contains 65534 = false := by
    decide +kernel
  rw [hports] at hkeys
  refine ⟨hrange, by decide +kernel, hkeys, fun counter => ?_⟩
  obtain ⟨launch, port, hbegun, hlow, -, hfree, -⟩ := (hclaims counter node).2.1 fun hall =>
    Bool.false_ne_true (hfree.symm.trans (hall 65534 (by decide) (by decide)))
  exact ⟨launch, port, hbegun, hlow, hfree⟩

end LauncherRun

end SigningGateway
