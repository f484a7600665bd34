import Mathlib.Data.List.Induction
import SigningGateway.Proofs.Scheduler.Returns

/-!
# What was recorded and cleared

A scheduler whose registry is also used from outside: besides the steps of its callers, launches and
tasks, assignments are recorded and cleared in any order.  The history of a run holds what was
recorded and cleared, and tells which assignment of a node stands: one that was recorded, with
nothing recorded for its node and its instance not cleared since.

    registry after a run = registry before, changed by the history                 (registry_run)
    get? node = some a ↔ a stands                                              (get?_eq_some_iff_stands)
-/

namespace SigningGateway

/-! ## Changes of a registry -/

/-- What changes a registry. -/
inductive RegistryEvent
  | recorded (a : Assignment)
  | cleared (node : NodeId) (instanceId : Uuid)

namespace RegistryEvent

/-- Whether an assignment stands no longer: another one of its node was recorded, or its instance
was cleared. -/
def Ends (a : Assignment) : RegistryEvent → Prop
  | .recorded b => b.node = a.node
  | .cleared node instanceId => node = a.node ∧ instanceId = a.instanceId

end RegistryEvent

/-- The assignment of a node that was recorded, and neither replaced nor cleared since. -/
def Stands (events : List RegistryEvent) (node : NodeId) (a : Assignment) : Prop :=
  a.node = node ∧ ∃ before after, events = before ++ .recorded a :: after ∧ ∀ e ∈ after, ¬e.Ends a

theorem stands_append (events : List RegistryEvent) (e : RegistryEvent) (node : NodeId)
    (a : Assignment) : Stands (events ++ [e]) node a ↔
      (e = .recorded a ∧ a.node = node) ∨ (Stands events node a ∧ ¬e.Ends a) := by
  constructor
  · rintro ⟨hnode, before, after, hevents, hafter⟩
    rcases List.eq_nil_or_concat after with rfl | ⟨after, last, rfl⟩
    · obtain ⟨-, hlast⟩ := List.append_inj' hevents rfl
      exact Or.inl ⟨List.singleton_inj.1 hlast, hnode⟩
    · rw [List.concat_eq_append, ← List.cons_append, ← List.append_assoc] at hevents
      obtain ⟨rfl, hlast⟩ := List.append_inj' hevents rfl
      obtain rfl := List.singleton_inj.1 hlast
      refine Or.inr ⟨⟨hnode, before, after, rfl, fun e' he' => hafter e' ?_⟩, hafter _ ?_⟩
      · simp [he']
      · simp
  · rintro (⟨rfl, hnode⟩ | ⟨⟨hnode, before, after, rfl, hafter⟩, hend⟩)
    · exact ⟨hnode, events, [], rfl, by simp⟩
    · refine ⟨hnode, before, after ++ [e], by simp, fun e' he' => ?_⟩
      rcases List.mem_append.1 he' with he' | he'
      · exact hafter e' he'
      · rwa [List.mem_singleton.1 he']

namespace Registry

def apply (r : Registry) : RegistryEvent → Registry
  | .recorded a => r.record a
  | .cleared node instanceId => (r.clear node instanceId).2

/-- Every assignment is filed under its node. -/
def Filed (r : Registry) : Prop := ∀ node a, r.get? node = some a → a.node = node

theorem get?_apply (r : Registry) (h : r.Filed) (e : RegistryEvent) (node : NodeId)
    (a : Assignment) : (r.apply e).get? node = some a ↔
      (e = .recorded a ∧ a.node = node) ∨ (r.get? node = some a ∧ ¬e.Ends a) := by
  cases e with
  | recorded b =>
    rw [apply, get?_record]
    split
    · next hnode =>
      subst hnode
      constructor
      · intro hb
        obtain rfl := Option.some.inj hb
        exact Or.inl ⟨rfl, rfl⟩
      · rintro (⟨hb, -⟩ | ⟨ha, hkept⟩)
        · rw [RegistryEvent.recorded.inj hb]
        · exact absurd (h _ _ ha).symm hkept
    · next hnode =>
      constructor
      · exact fun ha => Or.inr ⟨ha, fun hb => hnode ((h _ _ ha).symm.trans hb.symm)⟩
      · rintro (⟨hb, ha⟩ | ⟨ha, -⟩)
        · rw [RegistryEvent.recorded.inj hb] at hnode
          exact absurd ha.symm hnode
        · exact ha
  | cleared node' instanceId =>
    rw [apply, get?_clear]
    split
    · next hcleared =>
      obtain ⟨hnames, rfl⟩ := hcleared
      simp only [reduceCtorEq, false_and, false_or, false_iff, not_and, Classical.not_not]
      intro ha
      rw [names, ha, decide_eq_true_eq] at hnames
      exact ⟨(h _ _ ha).symm, hnames.symm⟩
    · next hcleared =>
      simp only [reduceCtorEq, false_and, false_or, iff_self_and]
      rintro ha ⟨rfl, rfl⟩
      refine hcleared ⟨?_, (h _ _ ha).symm⟩
      rw [names, h _ _ ha, ha, decide_eq_true_eq]

theorem Filed.apply {r : Registry} (h : r.Filed) (e : RegistryEvent) : (r.apply e).Filed := by
  intro node a ha
  rcases (r.get?_apply h e node a).1 ha with ⟨-, hnode⟩ | ⟨ha, -⟩
  · exact hnode
  · exact h node a ha

theorem filed_foldl (events : List RegistryEvent) (r : Registry) (h : r.Filed) :
    (events.foldl apply r).Filed := by
  induction events generalizing r with
  | nil => exact h
  | cons e events ih => exact ih (r.apply e) (h.apply e)

/-- The registry holds the assignments that stand. -/
theorem get?_eq_some_iff_stands (events : List RegistryEvent) (node : NodeId) (a : Assignment) :
    (events.foldl apply empty).get? node = some a ↔ Stands events node a := by
  induction events using List.reverseRecOn with
  | nil => simp [Stands]
  | append_singleton events e ih =>
    have hfiled : (events.foldl apply empty).Filed :=
      filed_foldl events empty fun node a ha => by cases ha
    rw [List.foldl_append, List.foldl_cons, List.foldl_nil, get?_apply _ hfiled, ih, stands_append]

end Registry

/-! ## Runs -/

/-- What happens to a scheduler whose registry is also used from outside. -/
inductive LookupOp
  | call (op : CallOp)
  | record (a : Assignment)
  | clear (node : NodeId) (instanceId : Uuid)

namespace SchedulerRun

def change (s : SchedulerRun) (e : RegistryEvent) : SchedulerRun :=
  { s with scheduler := { s.scheduler with registry := s.scheduler.registry.apply e } }

def after (s : SchedulerRun) : LookupOp → SchedulerRun
  | .call op => s.next op
  | .record a => s.change (.recorded a)
  | .clear node instanceId => s.change (.cleared node instanceId)

def runLookups (s : SchedulerRun) (ops : List LookupOp) : SchedulerRun := ops.foldl after s

/-- What an operation records or clears: a launch records its assignment when the launcher is done
with it, and the end of its process clears that. -/
def events (s : SchedulerRun) : LookupOp → List RegistryEvent
  | .record a => [.recorded a]
  | .clear node instanceId => [.cleared node instanceId]
  | .call (.step (.update launch)) =>
    match s.returned.get? launch with
    | some ⟨_, .recording a⟩ => [.recorded a]
    | _ => []
  | .call (.step (.clear launch)) =>
    match s.scheduler.watched.get? launch with
    | some a => if launch ∈ s.reported then [.cleared a.node a.instanceId] else []
    | none => []
  | .call _ => []

/-- What a run records and clears. -/
def history (s : SchedulerRun) : List LookupOp → List RegistryEvent
  | [] => []
  | op :: ops => s.events op ++ (s.after op).history ops

theorem runLookups_append (s : SchedulerRun) (ops more : List LookupOp) :
    s.runLookups (ops ++ more) = (s.runLookups ops).runLookups more := by
  simp [runLookups]

/-- Only what is recorded and cleared changes the registry, and nothing the settings. -/
theorem registry_after (s : SchedulerRun) (op : LookupOp) :
    (s.after op).scheduler.registry = (s.events op).foldl Registry.apply s.scheduler.registry ∧
      (s.after op).scheduler.settings = s.scheduler.settings := by
  cases op with
  | record a => exact ⟨rfl, rfl⟩
  | clear node instanceId => exact ⟨rfl, rfl⟩
  | call op =>
    cases op with
    | breakOff launch reason =>
      simp only [after, next, breakOff, events, List.foldl_nil]
      split
      · rcases breakOff_cases s.scheduler launch reason with hsame | ⟨_, _, -, -, hclose⟩
        · exact ⟨by rw [hsame], by rw [hsame]⟩
        · exact ⟨by rw [hclose]; rfl, by rw [hclose]; rfl⟩
      · exact ⟨rfl, rfl⟩
    | step op =>
      by_cases hop : ofCallers op = true
      · obtain ⟨asking, clock, joins, lookups, nextCall, hstep⟩ := step_ofCallers s op hop
        have hnone : s.events (.call (.step op)) = [] := by
          cases op <;> first | rfl | cases hop
        rw [hnone, after, next, hstep]
        exact ⟨rfl, rfl⟩
      cases op with
      | enter node =>
        simp only [after, next, step, events, List.foldl_nil]
        split
        · rcases s.scheduler.enter_cases node with ⟨_, _, henter⟩ | ⟨-, -, _, _, henter⟩ <;>
            exact ⟨by rw [henter], by rw [henter]⟩
        · exact ⟨rfl, rfl⟩
      | begin launch =>
        simp only [after, next, step, events, List.foldl_nil]
        rcases s.scheduler.begin_cases s.clock.steady launch with hbegin | ⟨_, -, hbegin⟩ <;>
          exact ⟨by rw [hbegin], by rw [hbegin]⟩
      | returned launch outcome =>
        simp only [after, next, step, events, List.foldl_nil]
        rcases s.settle_cases launch outcome with hsettle | ⟨_, _, _, _, -, -, -, hsettle⟩ <;>
          exact ⟨by rw [hsettle], by rw [hsettle]⟩
      | update launch =>
        simp only [after, next, step, events]
        cases hr : s.returned.get? launch with
        | none => exact ⟨rfl, rfl⟩
        | some r =>
          rcases r with ⟨node, stage⟩
          cases stage <;> exact ⟨rfl, rfl⟩
      | report launch =>
        simp only [after, next, step, events, List.foldl_nil]
        split <;> exact ⟨rfl, rfl⟩
      | clear launch =>
        simp only [after, next, step, events, Scheduler.exited]
        cases s.scheduler.watched.get? launch with
        | none => split <;> exact ⟨rfl, rfl⟩
        | some a => split <;> exact ⟨rfl, rfl⟩
      | _ => exact absurd rfl hop

theorem registry_run (s : SchedulerRun) (ops : List LookupOp) :
    (s.runLookups ops).scheduler.registry =
        (s.history ops).foldl Registry.apply s.scheduler.registry ∧
      (s.runLookups ops).scheduler.settings = s.scheduler.settings := by
  induction ops generalizing s with
  | nil => exact ⟨rfl, rfl⟩
  | cons op ops ih =>
    obtain ⟨hregistry, hsettings⟩ := s.registry_after op
    obtain ⟨hregistry', hsettings'⟩ := ih (s.after op)
    rw [history, List.foldl_append, ← hregistry, ← hsettings]
    exact ⟨hregistry', hsettings'⟩

end SchedulerRun

end SigningGateway
