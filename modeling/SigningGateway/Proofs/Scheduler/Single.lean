import SigningGateway.Proofs.Scheduler.Run

/-!
# One launch of a node at a time

A launch holds the entry of its node from the moment it is entered until it leaves the launches in
flight.  As long as it has not recorded an assignment the registry has none for its node, and an
assignment stays in the registry until the end of its process was reported and seen.

`s.standing launch` is how far a launch has come, all its updates counted.  A launch that comes
further keeps the invariant unless it records an assignment or awaits the end of its process:

    s.Moves s' launch node st st' → Single s → Single s'                           (Single.move)
-/

namespace SigningGateway

/-- How far a launch has come. -/
inductive Standing
  | ready
  /-- The launcher is at work. -/
  | working
  | returned (stage : Stage)
  | ended

namespace Standing

/-- Whether the launch is among those in flight. -/
def holds : Standing → Bool
  | .returned (.closing _) | .ended => false
  | _ => true

/-- Whether the launch is in flight and has recorded no assignment. -/
def unrecorded : Standing → Bool
  | .ready | .working => true
  | .returned (.recording _) | .returned (.counting _) | .returned (.leaving (.error _)) => true
  | _ => false

/-- Whether the launch awaits the end of its process or has failed. -/
def past : Standing → Bool
  | .returned (.leaving _) | .returned (.closing _) | .ended => true
  | _ => false

/-- The assignment that the launch is about to record or has just recorded. -/
def assignment? : Standing → Option Assignment
  | .returned (.recording a) | .returned (.watching a) => some a
  | _ => none

/-- Whether the launch has just recorded its assignment. -/
def recent : Standing → Bool
  | .returned (.watching _) => true
  | _ => false

theorem holds_of_unrecorded (st : Standing) (h : st.unrecorded = true) : st.holds = true := by
  unfold unrecorded at h
  split at h <;> first | rfl | cases h

end Standing

/-- The assignment of a node that was recorded last, with its launch. -/
def lastRecorded (recorded : List (Nat × Assignment)) (node : NodeId) : Option (Nat × Assignment) :=
  (recorded.filter fun e => e.2.node = node).getLast?

theorem mem_of_lastRecorded (recorded : List (Nat × Assignment)) (node : NodeId)
    (e : Nat × Assignment) (h : lastRecorded recorded node = some e) :
    e ∈ recorded ∧ e.2.node = node := by
  have hmem := List.mem_of_getLast? h
  rw [List.mem_filter, decide_eq_true_eq] at hmem
  exact hmem

theorem lastRecorded_append (recorded : List (Nat × Assignment)) (e : Nat × Assignment)
    (node : NodeId) :
    lastRecorded (recorded ++ [e]) node =
      if node = e.2.node then some e else lastRecorded recorded node := by
  rw [lastRecorded, List.filter_append]
  by_cases h : node = e.2.node
  · simp [h]
  · have hother : ¬e.2.node = node := fun heq => h heq.symm
    rw [if_neg h]
    simp [lastRecorded, hother]

namespace SchedulerRun

def standing (s : SchedulerRun) (launch : Nat) : Option (NodeId × Standing) :=
  match s.scheduler.launches.get? launch with
  | none => none
  | some ⟨node, .ready⟩ => some (node, .ready)
  | some ⟨node, .starting _⟩ =>
    match s.returned.get? launch with
    | none => some (node, .working)
    | some r => some (node, .returned r.stage)
  | some ⟨node, .ended _⟩ => some (node, .ended)

/-- The launch is one of the node and in flight. -/
def Holds (s : SchedulerRun) (launch : Nat) (node : NodeId) : Prop :=
  ∃ st, s.standing launch = some (node, st) ∧ st.holds = true

/-- The launch is one of the node, and in flight without having recorded an assignment. -/
def Unrecorded (s : SchedulerRun) (launch : Nat) (node : NodeId) : Prop :=
  ∃ st, s.standing launch = some (node, st) ∧ st.unrecorded = true

/-- The launch has recorded the assignment, and the end of its process was not seen. -/
def Uncleared (s : SchedulerRun) (launch : Nat) (a : Assignment) : Prop :=
  (∃ node, s.standing launch = some (node, .returned (.watching a))) ∨
    s.scheduler.watched.get? launch = some a

theorem Unrecorded.holds {s : SchedulerRun} {launch : Nat} {node : NodeId}
    (h : s.Unrecorded launch node) : s.Holds launch node := by
  obtain ⟨st, hst, hunrecorded⟩ := h
  exact ⟨st, hst, st.holds_of_unrecorded hunrecorded⟩

/-- What holds of the launches and assignments in a run. -/
structure Single (s : SchedulerRun) : Prop where
  numbers : ∀ launch x, s.standing launch = some x → launch < s.scheduler.nextLaunch
  returned : ∀ launch r, s.returned.get? launch = some r →
    s.standing launch = some (r.node, .returned r.stage)
  fits : ∀ launch node st a, s.standing launch = some (node, st) → st.assignment? = some a →
    a.node = node
  inFlight : ∀ node launch,
    s.scheduler.inFlight.get? node = some launch ↔ s.Holds launch node
  vacant : ∀ launch node, s.Unrecorded launch node → s.scheduler.registry.get? node = none
  watched : ∀ launch a, s.scheduler.watched.get? launch = some a →
    ∃ node st, s.standing launch = some (node, st) ∧ st.past = true
  current : ∀ launch a, s.Uncleared launch a →
    s.scheduler.registry.get? a.node = some a ∧
      lastRecorded s.recorded a.node = some (launch, a)
  registered : ∀ node a, s.scheduler.registry.get? node = some a →
    ∃ launch, lastRecorded s.recorded node = some (launch, a) ∧ s.Uncleared launch a
  cleared : ∀ node e, lastRecorded s.recorded node = some e →
    s.scheduler.registry.get? node = none → e.1 ∈ s.reported
  earlier : ∀ e ∈ s.recorded, e.1 ∈ s.reported ∨ lastRecorded s.recorded e.2.node = some e

theorem single_start (settings : SchedulerSettings) (clock : Clock) (entropy : Entropy) :
    (start settings clock entropy).Single where
  numbers := by intro launch x h; cases h
  returned := by intro launch r h; cases h
  fits := by intro launch node st a h; cases h
  inFlight := by
    intro node launch
    constructor
    · intro h
      cases h
    · rintro ⟨st, h, -⟩
      cases h
  vacant := by rintro launch node ⟨st, h, -⟩; cases h
  watched := by intro launch a h; cases h
  current := by
    rintro launch a (⟨node, h⟩ | h)
    · cases h
    · cases h
  registered := by intro node a h; cases h
  cleared := by intro node e h; cases h
  earlier := by intro e h; cases h

/-- The next number is that of no launch. -/
theorem Single.launches_nextLaunch {s : SchedulerRun} (h : s.Single) :
    s.scheduler.launches.get? s.scheduler.nextLaunch = none := by
  cases hget : s.scheduler.launches.get? s.scheduler.nextLaunch with
  | none => rfl
  | some l =>
    have hstanding : ∃ x, s.standing s.scheduler.nextLaunch = some x := by
      unfold standing
      rcases l with ⟨node, phase⟩
      rw [hget]
      cases phase with
      | ready => exact ⟨_, rfl⟩
      | starting deadline =>
        cases s.returned.get? s.scheduler.nextLaunch <;> exact ⟨_, rfl⟩
      | ended result => exact ⟨_, rfl⟩
    obtain ⟨x, hx⟩ := hstanding
    exact absurd (h.numbers _ x hx) (Nat.lt_irrefl _)

theorem standing_inj {s : SchedulerRun} {launch : Nat} {node node' : NodeId} {st st' : Standing}
    (h : s.standing launch = some (node, st)) (h' : s.standing launch = some (node', st')) :
    node' = node ∧ st' = st := by
  rw [h] at h'
  exact ⟨(Prod.mk.inj (Option.some.inj h')).1.symm, (Prod.mk.inj (Option.some.inj h')).2.symm⟩

/-- Two launches of a node are not in flight together. -/
theorem Single.holds_inj {s : SchedulerRun} (h : s.Single) {launch launch' : Nat} {node : NodeId}
    (hl : s.Holds launch node) (hl' : s.Holds launch' node) : launch = launch' := by
  have hget := (h.inFlight node launch).2 hl
  rw [(h.inFlight node launch').2 hl'] at hget
  exact (Option.some.inj hget).symm

/-- A launch that has just recorded an assignment or has not done so yet has no process whose end is
awaited. -/
theorem Single.not_watched {s : SchedulerRun} (h : s.Single) {launch : Nat} {node : NodeId}
    {st : Standing} (hst : s.standing launch = some (node, st)) (hpast : st.past = false) :
    s.scheduler.watched.get? launch = none := by
  cases hget : s.scheduler.watched.get? launch with
  | none => rfl
  | some a =>
    obtain ⟨node', st', hst', hpast'⟩ := h.watched launch a hget
    rw [(standing_inj hst hst').2, hpast] at hpast'
    cases hpast'

/-! ## Launches that come further -/

/-- One launch comes to a standing, and the others stay where they are. -/
structure Reaches (s s' : SchedulerRun) (launch : Nat) (node : NodeId) (st' : Standing) :
    Prop where
  after : s'.standing launch = some (node, st')
  others : ∀ other, other ≠ launch → s'.standing other = s.standing other

/-- One launch comes from one standing to another, and the others stay where they are. -/
structure Moves (s s' : SchedulerRun) (launch : Nat) (node : NodeId) (st st' : Standing) : Prop
    extends Reaches s s' launch node st' where
  before : s.standing launch = some (node, st)

/-- The standing of a launch depends on its own entries only. -/
theorem standing_congr (s s' : SchedulerRun) (launch : Nat)
    (hlaunches : s'.scheduler.launches.get? launch = s.scheduler.launches.get? launch)
    (hreturned : s'.returned.get? launch = s.returned.get? launch) :
    s'.standing launch = s.standing launch := by
  rw [standing, standing, hlaunches, hreturned]

/-- A standing afterwards is that of the launch that came to it, or that of another one before. -/
theorem Reaches.standing_cases {s s' : SchedulerRun} {launch : Nat} {node : NodeId}
    {st' : Standing} (hr : s.Reaches s' launch node st') {other : Nat} {node' : NodeId}
    {st₀ : Standing} (h : s'.standing other = some (node', st₀)) :
    (other = launch ∧ node' = node ∧ st₀ = st') ∨
      (other ≠ launch ∧ s.standing other = some (node', st₀)) := by
  by_cases hother : other = launch
  · subst hother
    exact Or.inl ⟨rfl, standing_inj hr.after h⟩
  · exact Or.inr ⟨hother, hr.others other hother ▸ h⟩

namespace Moves

variable {s s' : SchedulerRun} {launch : Nat} {node : NodeId} {st st' : Standing}
  (hm : s.Moves s' launch node st st')
include hm

theorem holds_iff (hsame : st'.holds = st.holds) (other : Nat) (node' : NodeId) :
    s'.Holds other node' ↔ s.Holds other node' := by
  constructor
  · rintro ⟨st₀, hst₀, hholds⟩
    rcases hm.standing_cases hst₀ with ⟨rfl, rfl, rfl⟩ | ⟨-, hst₀⟩
    · exact ⟨st, hm.before, hsame ▸ hholds⟩
    · exact ⟨st₀, hst₀, hholds⟩
  · rintro ⟨st₀, hst₀, hholds⟩
    by_cases hother : other = launch
    · subst hother
      obtain ⟨rfl, rfl⟩ := standing_inj hm.before hst₀
      exact ⟨st', hm.after, hsame ▸ hholds⟩
    · exact ⟨st₀, (hm.others other hother).trans hst₀, hholds⟩

theorem unrecorded (hless : st'.unrecorded = true → st.unrecorded = true) (other : Nat)
    (node' : NodeId) (h : s'.Unrecorded other node') : s.Unrecorded other node' := by
  obtain ⟨st₀, hst₀, hunrecorded⟩ := h
  rcases hm.standing_cases hst₀ with ⟨rfl, rfl, rfl⟩ | ⟨-, hst₀⟩
  · exact ⟨st, hm.before, hless hunrecorded⟩
  · exact ⟨st₀, hst₀, hunrecorded⟩

theorem numbers (h : s.Single) (other : Nat) (x : NodeId × Standing)
    (hx : s'.standing other = some x) : other < s.scheduler.nextLaunch := by
  rcases hm.standing_cases hx with ⟨rfl, -, -⟩ | ⟨-, hx⟩
  · exact h.numbers _ _ hm.before
  · exact h.numbers other x hx

theorem fits (h : s.Single) (hfits : ∀ a, st'.assignment? = some a → a.node = node) (other : Nat)
    (node' : NodeId) (st₀ : Standing) (a : Assignment)
    (hst₀ : s'.standing other = some (node', st₀)) (ha : st₀.assignment? = some a) :
    a.node = node' := by
  rcases hm.standing_cases hst₀ with ⟨rfl, rfl, rfl⟩ | ⟨-, hst₀⟩
  · exact hfits a ha
  · exact h.fits other node' st₀ a hst₀ ha

theorem watched (h : s.Single) (hpast : st.past = true → st'.past = true) (other : Nat)
    (a : Assignment) (ha : s.scheduler.watched.get? other = some a) :
    ∃ node' st₀, s'.standing other = some (node', st₀) ∧ st₀.past = true := by
  obtain ⟨node', st₀, hst₀, hpast₀⟩ := h.watched other a ha
  by_cases hother : other = launch
  · subst hother
    obtain ⟨rfl, rfl⟩ := standing_inj hm.before hst₀
    exact ⟨node', st', hm.after, hpast hpast₀⟩
  · exact ⟨node', st₀, (hm.others other hother).trans hst₀, hpast₀⟩

/-- A launch other than the one that moves is as uncleared as before. -/
theorem uncleared_other (other : Nat)
    (hwatched : s'.scheduler.watched.get? other = s.scheduler.watched.get? other)
    (hother : other ≠ launch) (a : Assignment) :
    s'.Uncleared other a ↔ s.Uncleared other a := by
  rw [Uncleared, Uncleared, hm.others other hother, hwatched]

end Moves

/-- As long as the registry stays as it is and the same processes run uncleared, the assignments
are those that were recorded and not reported. -/
theorem Single.assigned {s : SchedulerRun} (h : s.Single) (s' : SchedulerRun)
    (huncleared : ∀ launch a, s'.Uncleared launch a ↔ s.Uncleared launch a)
    (hregistry : s'.scheduler.registry = s.scheduler.registry)
    (hrecorded : s'.recorded = s.recorded)
    (hreported : ∀ launch ∈ s.reported, launch ∈ s'.reported) :
    (∀ launch a, s'.Uncleared launch a → s'.scheduler.registry.get? a.node = some a ∧
        lastRecorded s'.recorded a.node = some (launch, a)) ∧
      (∀ node a, s'.scheduler.registry.get? node = some a →
        ∃ launch, lastRecorded s'.recorded node = some (launch, a) ∧ s'.Uncleared launch a) ∧
      (∀ node e, lastRecorded s'.recorded node = some e →
        s'.scheduler.registry.get? node = none → e.1 ∈ s'.reported) ∧
      ∀ e ∈ s'.recorded, e.1 ∈ s'.reported ∨ lastRecorded s'.recorded e.2.node = some e := by
  rw [hregistry, hrecorded]
  refine ⟨?_, ?_, ?_, ?_⟩
  · intro launch a ha
    exact h.current launch a ((huncleared launch a).1 ha)
  · intro node a ha
    obtain ⟨launch, hlast, hlaunch⟩ := h.registered node a ha
    exact ⟨launch, hlast, (huncleared launch a).2 hlaunch⟩
  · intro node e he hnone
    exact hreported _ (h.cleared node e he hnone)
  · intro e he
    exact (h.earlier e he).imp_left (hreported _)

/-- Launches come further, and nothing else changes. -/
structure Keeps (s s' : SchedulerRun) : Prop where
  nextLaunch : s'.scheduler.nextLaunch = s.scheduler.nextLaunch
  registry : s'.scheduler.registry = s.scheduler.registry
  watched : s'.scheduler.watched = s.scheduler.watched
  recorded : s'.recorded = s.recorded
  reported : s'.reported = s.reported

/-- A launch that comes further without recording an assignment or awaiting an end keeps the
invariant. -/
theorem Single.move {s s' : SchedulerRun} (h : s.Single) {launch : Nat} {node : NodeId}
    {st st' : Standing} (hm : s.Moves s' launch node st st')
    (hkeeps : s.Keeps s')
    (hreturned : ∀ other r, s'.returned.get? other = some r →
      s'.standing other = some (r.node, .returned r.stage))
    (hinFlight : ∀ node' other,
      s'.scheduler.inFlight.get? node' = some other ↔ s'.Holds other node')
    (hfits : ∀ a, st'.assignment? = some a → a.node = node)
    (hless : st'.unrecorded = true → st.unrecorded = true)
    (hpast : st.past = true → st'.past = true)
    (hrecent : st.recent = false ∧ st'.recent = false) : s'.Single := by
  obtain ⟨hnext, hregistry, hwatched, hrecorded, hreported⟩ := hkeeps
  have huncleared : ∀ other a, s'.Uncleared other a ↔ s.Uncleared other a := by
    intro other a
    by_cases hother : other = launch
    · subst hother
      rw [Uncleared, Uncleared, hwatched]
      apply or_congr_left
      constructor
      · rintro ⟨node', heq⟩
        rw [(standing_inj heq hm.after).2] at hrecent
        cases hrecent.2
      · rintro ⟨node', heq⟩
        rw [(standing_inj heq hm.before).2] at hrecent
        cases hrecent.1
    · exact hm.uncleared_other other (by rw [hwatched]) hother a
  obtain ⟨hcurrent, hregistered, hcleared, hearlier⟩ :=
    h.assigned s' huncleared hregistry hrecorded (by rw [hreported]; exact fun _ hmem => hmem)
  refine ⟨?_, hreturned, hm.fits h hfits, hinFlight, ?_, ?_, hcurrent, hregistered, hcleared,
    hearlier⟩
  · rw [hnext]
    exact hm.numbers h
  · intro other node' hunrecorded
    rw [hregistry]
    exact h.vacant other node' (hm.unrecorded hless other node' hunrecorded)
  · rw [hwatched]
    exact hm.watched h hpast

/-! ## Turns of launches -/

theorem standing_ready {s : SchedulerRun} {launch : Nat} {node : NodeId}
    (h : s.scheduler.launches.get? launch = some ⟨node, .ready⟩) :
    s.standing launch = some (node, .ready) := by
  rw [standing, h]

theorem standing_working {s : SchedulerRun} {launch : Nat} {node : NodeId} {deadline : Nat}
    (h : s.scheduler.launches.get? launch = some ⟨node, .starting deadline⟩)
    (hr : s.returned.get? launch = none) : s.standing launch = some (node, .working) := by
  rw [standing, h, hr]

theorem standing_returned {s : SchedulerRun} {launch : Nat} {node : NodeId} {deadline : Nat}
    {r : Returned} (h : s.scheduler.launches.get? launch = some ⟨node, .starting deadline⟩)
    (hr : s.returned.get? launch = some r) :
    s.standing launch = some (node, .returned r.stage) := by
  rw [standing, h, hr]

/-- The launcher was called for a launch with which it is done. -/
theorem Single.starting {s : SchedulerRun} (h : s.Single) {launch : Nat} {r : Returned}
    (hr : s.returned.get? launch = some r) :
    ∃ deadline, s.scheduler.launches.get? launch = some ⟨r.node, .starting deadline⟩ := by
  have hst := h.returned launch r hr
  unfold standing at hst
  split at hst
  · cases hst
  · cases hst
  · next node deadline hget =>
    rw [hr] at hst
    obtain ⟨rfl, -⟩ := Prod.mk.inj (Option.some.inj hst)
    exact ⟨deadline, hget⟩
  · cases hst

/-- A launch at which the launcher is not done yet has no update to make. -/
theorem Single.not_returned {s : SchedulerRun} (h : s.Single) {launch : Nat} {node : NodeId}
    {st : Standing} (hst : s.standing launch = some (node, st))
    (hnot : ∀ stage, st ≠ .returned stage) : s.returned.get? launch = none := by
  cases hr : s.returned.get? launch with
  | none => rfl
  | some r =>
    exact absurd (standing_inj (h.returned launch r hr) hst).2 (hnot r.stage)

theorem single_begin (s : SchedulerRun) (h : s.Single) (launch : Nat) :
    (s.step (.begin launch)).Single := by
  rw [step]
  rcases s.scheduler.begin_cases s.clock.steady launch with hbegin | ⟨node, hready, hbegin⟩
  · rw [hbegin]
    exact h
  · rw [hbegin]
    have hbefore := standing_ready hready
    have hnone := h.not_returned hbefore (by intro stage heq; cases heq)
    have hm : s.Moves { s with scheduler := { s.scheduler with
        launches := s.scheduler.launches.set launch
          ⟨node, .starting (s.clock.steady + s.scheduler.settings.spawnTimeout)⟩
        started := s.scheduler.started + 1 } } launch node .ready .working := by
      refine ⟨⟨?_, ?_⟩, hbefore⟩
      · exact standing_working ((Table.get?_set _ _ _ _).trans (if_pos rfl)) hnone
      · intro other hother
        exact standing_congr _ _ other ((Table.get?_set _ _ _ _).trans (if_neg hother)) rfl
    apply h.move hm ⟨rfl, rfl, rfl, rfl, rfl⟩
    · intro other r hr
      by_cases hother : other = launch
      · subst hother
        rw [show s.returned.get? other = some r from hr] at hnone
        cases hnone
      · rw [hm.others other hother]
        exact h.returned other r hr
    · intro node' other
      rw [hm.holds_iff rfl]
      exact h.inFlight node' other
    · intro a ha
      cases ha
    · exact fun _ => rfl
    · intro hpast
      cases hpast
    · exact ⟨rfl, rfl⟩

/-! ## Updates of launches -/

/-- A launch with which the launcher is done comes to another stage. -/
theorem moves_stage {s s' : SchedulerRun} {launch : Nat} {node : NodeId} {deadline : Nat}
    {st : Standing} (stage : Stage) (hbefore : s.standing launch = some (node, st))
    (hstarting : s.scheduler.launches.get? launch = some ⟨node, .starting deadline⟩)
    (hlaunches : s'.scheduler.launches = s.scheduler.launches)
    (hreturned : s'.returned = s.returned.set launch ⟨node, stage⟩) :
    s.Moves s' launch node st (.returned stage) := by
  refine ⟨⟨?_, ?_⟩, hbefore⟩
  · have hafter : s'.scheduler.launches.get? launch = some ⟨node, .starting deadline⟩ := by
      rw [hlaunches, hstarting]
    exact standing_returned hafter (by rw [hreturned, Table.get?_set, if_pos rfl])
  · intro other hother
    apply standing_congr
    · rw [hlaunches]
    · rw [hreturned, Table.get?_set, if_neg hother]

theorem Single.returned_stage {s s' : SchedulerRun} (h : s.Single) {launch : Nat} {node : NodeId}
    {st : Standing} {stage : Stage} (hm : s.Moves s' launch node st (.returned stage))
    (hreturned : s'.returned = s.returned.set launch ⟨node, stage⟩) (other : Nat) (r : Returned)
    (hr : s'.returned.get? other = some r) :
    s'.standing other = some (r.node, .returned r.stage) := by
  rw [hreturned, Table.get?_set] at hr
  split at hr
  · next hother =>
    subst hother
    rw [← Option.some.inj hr]
    exact hm.after
  · next hother =>
    rw [hm.others other hother]
    exact h.returned other r hr

/-- A launch that comes to another stage and stays in flight, when nothing is recorded or awaited,
keeps the invariant. -/
theorem Single.stage {s : SchedulerRun} (h : s.Single) (s' : SchedulerRun) {launch : Nat}
    {node : NodeId} {deadline : Nat} {st : Standing} (stage : Stage)
    (hbefore : s.standing launch = some (node, st))
    (hstarting : s.scheduler.launches.get? launch = some ⟨node, .starting deadline⟩)
    (hlaunches : s'.scheduler.launches = s.scheduler.launches)
    (hinFlight : s'.scheduler.inFlight = s.scheduler.inFlight)
    (hreturned : s'.returned = s.returned.set launch ⟨node, stage⟩) (hkeeps : s.Keeps s')
    (hholds : (Standing.returned stage).holds = st.holds)
    (hfits : ∀ a, (Standing.returned stage).assignment? = some a → a.node = node)
    (hless : (Standing.returned stage).unrecorded = true → st.unrecorded = true)
    (hpast : st.past = true → (Standing.returned stage).past = true)
    (hrecent : st.recent = false ∧ (Standing.returned stage).recent = false) : s'.Single := by
  have hm := moves_stage stage hbefore hstarting hlaunches hreturned
  apply h.move hm hkeeps (h.returned_stage hm hreturned)
  · intro node' other
    rw [hinFlight, hm.holds_iff hholds]
    exact h.inFlight node' other
  · exact hfits
  · exact hless
  · exact hpast
  · exact hrecent

theorem single_settle (s : SchedulerRun) (h : s.Single) (launch : Nat) (outcome : LaunchOutcome) :
    (s.settle launch outcome).Single := by
  rcases s.settle_cases launch outcome with
    hsettle | ⟨node, deadline, entropy, stage, hstarting, hnone, hfirst, hsettle⟩
  · rw [hsettle]
    exact h
  · rw [hsettle]
    apply h.stage { s with entropy, returned := s.returned.set launch ⟨node, stage⟩ } stage
      (standing_working hstarting hnone) hstarting rfl rfl rfl ⟨rfl, rfl, rfl, rfl, rfl⟩
    · rcases hfirst with ⟨a, -, rfl⟩ | ⟨cause, rfl⟩ <;> rfl
    · intro a ha
      rcases hfirst with ⟨a', hnode, rfl⟩ | ⟨cause, rfl⟩
      · rw [← Option.some.inj ha]
        exact hnode
      · cases ha
    · exact fun _ => rfl
    · intro hpast
      cases hpast
    · rcases hfirst with ⟨a, -, rfl⟩ | ⟨cause, rfl⟩ <;> exact ⟨rfl, rfl⟩

end SchedulerRun

end SigningGateway
