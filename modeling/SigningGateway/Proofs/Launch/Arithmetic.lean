import SigningGateway.Proofs.Launch.Leases

/-!
# The arithmetic of a lease

A lease computes the width of the range, and the port behind its low end each time the counter has
left the range.  Both have to be ports again; only the counter itself may start over at zero.  The
checked forms of the pool's functions give nothing where the arithmetic leaves 16 bits.

    leaseChecked = none ↔ low = 65535 ∧ next ≠ 65535                           (leaseChecked_eq)
    low = 65535 → the counter leaves the range with the first launch, for good        (next_run)
-/

namespace SigningGateway

/-! ## Checked arithmetic of ports -/

/-- The sum of two numbers of 16 bits, if it has no more. -/
def checkedAdd (a b : UInt16) : Option UInt16 :=
  if a.toNat + b.toNat < UInt16.size then some (a + b) else none

/-- The difference of two numbers of 16 bits, if there is one. -/
def checkedSub (a b : UInt16) : Option UInt16 := if b ≤ a then some (a - b) else none

/-- Only the last number has no next one. -/
theorem checkedAdd_one (a : UInt16) :
    checkedAdd a 1 = if a = 65535 then none else some (a + 1) := by
  have hlast : a = 65535 ↔ a.toNat = 65535 := UInt16.toNat_inj.symm
  have hroom : a.toNat + (1 : UInt16).toNat < UInt16.size ↔ a ≠ 65535 := by
    have hsize : a.toNat < 65536 := a.toNat_lt
    rw [Ne, hlast]
    show a.toNat + 1 < 65536 ↔ _
    omega
  rw [checkedAdd]
  by_cases h : a = 65535
  · rw [if_pos h, if_neg fun hlt => hroom.1 hlt h]
  · rw [if_neg h, if_pos (hroom.2 h)]

namespace PortPool

/-! ## Checked leases -/

def spanChecked (p : PortPool) : Option Nat :=
  (checkedSub p.high p.low).map fun width => width.toNat + 1

def walkChecked (p : PortPool) : Option (UInt16 × PortPool) :=
  if p.inRange p.next then some (p.next, { p with next := p.next + 1 })
  else (checkedAdd p.low 1).map fun next => (p.low, { p with next })

def leaseAmongChecked : Nat → PortPool → NodeId → Option (Option UInt16 × PortPool)
  | 0, p, _ => some (none, p)
  | tries + 1, p, node =>
    match p.walkChecked with
    | none => none
    | some (port, p) =>
      if p.leases.contains port then leaseAmongChecked tries p node
      else some (some port, { p with leases := p.leases.set port node })

def leaseChecked (p : PortPool) (node : NodeId) : Option (Option UInt16 × PortPool) :=
  match p.spanChecked with
  | none => none
  | some tries => leaseAmongChecked tries p node

variable {p : PortPool}

theorem IsRange.spanChecked_eq (h : p.IsRange) : p.spanChecked = some p.span := by
  have hle : p.low ≤ p.high := h
  rw [spanChecked, checkedSub, if_pos hle]
  rfl

/-- A step of the walk computes no port behind the last one, unless the range begins there. -/
theorem walkChecked_eq (p : PortPool) :
    p.walkChecked = if p.low = 65535 ∧ p.inRange p.next = false then none else some p.walk := by
  rw [walkChecked, walk, checkedAdd_one]
  cases p.inRange p.next with
  | true => simp
  | false => by_cases hlow : p.low = 65535 <;> simp [hlow]

theorem leaseAmongChecked_of_low (hlow : p.low ≠ 65535) (tries : Nat) (node : NodeId) :
    leaseAmongChecked tries p node = some (leaseAmong tries p node) := by
  induction tries generalizing p with
  | zero => rfl
  | succ tries ih =>
    rw [leaseAmongChecked, walkChecked_eq, if_neg fun hlast => hlow hlast.1, leaseAmong]
    dsimp only
    split
    · exact ih hlow
    · rfl

/-- A range that begins at the last port of all holds no other. -/
theorem IsRange.of_lastPort (h : p.IsRange) (hlow : p.low = 65535) :
    p.span = 1 ∧ ∀ port, p.inRange port = true ↔ port = 65535 := by
  have hle := h.toNat_le
  have hhigh := p.high.toNat_lt
  have hlast : p.low.toNat = 65535 := by rw [hlow]; rfl
  refine ⟨by rw [h.span_eq]; omega, fun port => ?_⟩
  have hport := port.toNat_lt
  rw [inRange_iff, ← UInt16.toNat_inj, show (65535 : UInt16).toNat = 65535 from rfl]
  omega

/-- The arithmetic of a lease stays in its type, unless the range begins at the last port of all and
the counter has left it. -/
theorem IsRange.leaseChecked_eq (h : p.IsRange) (node : NodeId) :
    p.leaseChecked node =
      if p.low = 65535 ∧ p.next ≠ 65535 then none else some (p.lease node) := by
  rw [leaseChecked, h.spanChecked_eq, lease]
  dsimp only
  by_cases hlow : p.low = 65535
  · obtain ⟨hspan, hin⟩ := h.of_lastPort hlow
    rw [hspan, leaseAmongChecked, walkChecked_eq]
    by_cases hnext : p.next = 65535
    · have hhere := (hin p.next).2 hnext
      rw [if_neg fun hleft => Bool.false_ne_true (hleft.2.symm.trans hhere),
        if_neg fun hleft => hleft.2 hnext]
      dsimp only [leaseAmongChecked, leaseAmong]
      split <;> rfl
    · have hleft : p.inRange p.next = false := Bool.eq_false_iff.2 fun hhere =>
        hnext ((hin p.next).1 hhere)
      rw [if_pos ⟨hlow, hleft⟩, if_pos ⟨hlow, hnext⟩]
  · rw [if_neg fun hlast => hlow hlast.1]
    exact leaseAmongChecked_of_low hlow _ node

/-- Behind a lease of the last port of all the counter starts over at zero. -/
theorem IsRange.next_lease_of_lastPort (h : p.IsRange) (hlow : p.low = 65535) (node : NodeId) :
    (p.lease node).2.next = 0 := by
  obtain ⟨hspan, hin⟩ := h.of_lastPort hlow
  have hport : (if p.inRange p.next then p.next else p.low) = 65535 := by
    split
    · next hnext => exact (hin _).1 hnext
    · exact hlow
  rw [lease, hspan, leaseAmong, walk, hport]
  dsimp only [leaseAmong]
  split <;> rfl

end PortPool

/-! ## Runs of the launcher -/

/-- Whether an operation begins a launch. -/
def LaunchOp.isClaim : LaunchOp → Bool
  | .claim _ => true
  | _ => false

namespace Launcher

theorem next_release (l : Launcher) (launch : Nat) :
    (l.release launch).ports.next = l.ports.next := by
  unfold release
  split <;> rfl

theorem next_equip (l : Launcher) (launch : Nat) (node : NodeId) (port : UInt16) (store : Store)
    (fault : Option WriteFault) (now : Moment) (e : Entropy) :
    (l.equip launch node port store fault now e).1.2.1.ports.next = l.ports.next := by
  unfold equip
  rcases store.issueNodeCredential fault now node e with ⟨cause | ⟨credential, store'⟩, e'⟩
  · exact l.next_release launch
  · dsimp only
    cases command l.settings node port credential with
    | error cause => exact l.next_release launch
    | ok c => rfl

/-- Only the beginning of a launch moves the counter. -/
theorem next_apply (l : Launcher) (op : LaunchOp) (h : op.isClaim = false) :
    (l.apply op).2.ports.next = l.ports.next := by
  cases op with
  | claim node => cases h
  | equip launch store fault now e =>
    rw [apply]
    split
    · rfl
    · next p hp =>
      have hnext := l.next_equip launch p.node p.port store fault now e
      split
      · next c l' store' e' heq => rwa [heq] at hnext
      · next cause l' store' e' heq => rwa [heq] at hnext
  | spawnFailed launch reason => exact l.next_release launch
  | exitedEarly launch status => exact l.next_release launch
  | accepted launch =>
    show (l.accepted launch).2.ports.next = l.ports.next
    unfold accepted
    split <;> rfl
  | giveUp launch => exact l.next_release launch
  | exited launch => exact l.next_release launch

/-- The beginning of a launch moves the counter as its lease does. -/
theorem next_apply_claim (l : Launcher) (node : NodeId) :
    (l.apply (.claim node)).2.ports.next = (l.ports.lease node).2.next := by
  rcases hlease : l.ports.lease node with ⟨_ | port, ports⟩ <;>
    simp only [apply, claim, hlease, enter]

end Launcher

namespace LauncherRun

variable {settings : LauncherSettings} (hrange : settings.portMin ≤ settings.portMax)
include hrange

/-- In a range that begins at the last port of all, the first launch moves the counter out of the
range, and it never comes back. -/
theorem next_run (hlow : settings.portMin = 65535) (ops : List LaunchOp) (s : LauncherRun)
    (h : Leased settings (ongoing s.log) s.launcher) :
    (s.run ops).launcher.ports.next =
      if ops.any LaunchOp.isClaim then 0 else s.launcher.ports.next := by
  induction ops generalizing s with
  | nil => rfl
  | cons op ops ih =>
    have hrun : s.run (op :: ops) = (s.step op).run ops := rfl
    have hstep : (s.step op).launcher.ports.next = (s.launcher.apply op).2.ports.next := rfl
    rw [hrun, ih (s.step op) (leased_run hrange [op] s h), hstep, List.any_cons]
    cases hop : op.isClaim with
    | false => rw [s.launcher.next_apply op hop, Bool.false_or]
    | true =>
      cases op with
      | claim node =>
        have hpool : s.launcher.ports.IsRange := by rwa [PortPool.IsRange, h.low, h.high]
        rw [s.launcher.next_apply_claim node,
          hpool.next_lease_of_lastPort (h.low.trans hlow) node, Bool.true_or, if_pos rfl, ite_self]
      | _ => cases hop

/-- In a run from the start, the arithmetic of the next lease stays in its type, unless the range
begins at the last port of all and a launch has begun before. -/
theorem leaseChecked_run (ops : List LaunchOp) (node : NodeId) :
    let p := ((start settings settings.portMin).run ops).launcher.ports
    p.spanChecked = some (settings.portMax.toNat - settings.portMin.toNat + 1) ∧
      p.leaseChecked node =
        if settings.portMin = 65535 ∧ ops.any LaunchOp.isClaim = true then none
        else some (p.lease node) := by
  intro p
  have hstart := Leased.start settings settings.portMin
  have hs := leased_run hrange ops (start settings settings.portMin) hstart
  have hpool : p.IsRange := by
    show p.low ≤ p.high
    rwa [hs.low, hs.high]
  refine ⟨by rw [hpool.spanChecked_eq, hpool.span_eq, hs.low, hs.high], ?_⟩
  rw [hpool.leaseChecked_eq, hs.low]
  by_cases hlow : settings.portMin = 65535
  · have hnext : p.next = if ops.any LaunchOp.isClaim then 0 else settings.portMin :=
      next_run hrange hlow ops _ hstart
    rw [hnext]
    cases ops.any LaunchOp.isClaim <;> simp [hlow]
  · rw [if_neg fun hlast => hlow hlast.1, if_neg fun hlast => hlow hlast.1]

end LauncherRun

end SigningGateway
