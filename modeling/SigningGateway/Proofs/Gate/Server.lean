import SigningGateway.Proofs.Gate.Callers
import SigningGateway.Proofs.Relay.Numbers
import SigningGateway.Proofs.Relay.Origin
import SigningGateway.Proofs.Scheduler.Returns

/-!
# The server behind the gate

The gateway answers requests while launches, waiting callers and WebSockets take their steps, and
while the authenticator and its store change.  A request on one of the routes that act for a node
changes nothing unless it is entitled to a node; what it then reads, makes or is told, at once or
after any further steps, is of that node alone.

    Sound s → Sound (s.step op)                                                    (sound_step)
    s.Joined node call → (s.run ops).Joined node call                               (joined_run)
-/

namespace SigningGateway

/-- A gateway with the tasks of its scheduler. -/
structure Server where
  auth : Authenticator
  scheduling : SchedulerRun
  relay : Relay

/-- What happens to a server. -/
inductive ServerOp
  | request (now : Clock) (fault : Option WriteFault) (r : HttpRequest)
  /-- A step of a waiting caller, of a launch or of another task of the scheduler. -/
  | scheduling (op : CallOp)
  /-- A step of a WebSocket or of the sweeping of the relay. -/
  | relaying (now : Nat) (op : RelayOp)
  /-- The authenticator and its store become anything at all. -/
  | auth (after : Authenticator)

namespace Server

/-! ## Runs -/

def start (auth : Authenticator) (scheduler : SchedulerSettings) (relay : RelaySettings)
    (clock : Clock) (entropy : Entropy) : Server :=
  ⟨auth, .start scheduler clock entropy, .start relay⟩

def gateway (s : Server) : Gateway := ⟨s.auth, s.scheduling.scheduler, s.relay⟩

/-- The server with another gateway. -/
def withGateway (s : Server) (g : Gateway) (entropy : Entropy) : Server :=
  ⟨g.auth, { s.scheduling with scheduler := g.scheduler, entropy }, g.relay⟩

def handle (s : Server) (now : Clock) (fault : Option WriteFault) (r : HttpRequest) :
    Handled × Server :=
  let ((handled, g), entropy) := s.gateway.handle now fault r s.scheduling.entropy
  (handled, s.withGateway g entropy)

def step (s : Server) : ServerOp → Server
  | .request now fault r => (s.handle now fault r).2
  | .scheduling op => { s with scheduling := s.scheduling.next op }
  | .relaying now op => { s with relay := ((ClockedRelay.mk s.relay now).step op).2.relay }
  | .auth auth => { s with auth }

def run (s : Server) (ops : List ServerOp) : Server := ops.foldl step s

/-! ## What a request can change -/

/-- What a request makes of the scheduler: callers enter, ask or wait. -/
inductive Calls (s : Scheduler) : Scheduler → Prop
  | same : Calls s s
  | entered (node : NodeId) : Calls s (s.enter node).2
  | waiting (l : Lookup) : Calls s
      { s with lookups := s.lookups.set s.nextCall l, nextCall := s.nextCall + 1 }

/-- What a request makes of the relay: a WebSocket comes up. -/
inductive Connects (r : Relay) : Relay → Prop
  | same : Connects r r
  | opened (node : NodeId) : Connects r (r.openStream node).2
  | attached (node : NodeId) : Connects r (r.attach node).2

/-- A request enters calls and connections and nothing else beside the authenticator. -/
theorem handle_cases (g : Gateway) (now : Clock) (fault : Option WriteFault) (r : HttpRequest)
    (e : Entropy) :
    Calls g.scheduler (g.handle now fault r e).1.2.scheduler ∧
      Connects g.relay (g.handle now fault r e).1.2.relay := by
  cases hroute : Route.find r.method r.path with
  | error status =>
    simp only [Gateway.handle, hroute]
    exact ⟨.same, .same⟩
  | ok route =>
    by_cases hgated : ∃ role, route.role? = some role
    · obtain ⟨role, hrole⟩ := hgated
      by_cases hnobody : ∃ node, g.Entitles now.wall r route node
      · obtain ⟨node, hentitles⟩ := hnobody
        cases route with
        | schedule =>
          rw [g.handle_schedule fault e hroute hentitles]
          split
          · exact ⟨.same, .same⟩
          · exact ⟨.entered node, .same⟩
        | locate =>
          rcases g.handle_locate fault e hroute hentitles with h | h <;> rw [h]
          · exact ⟨.same, .same⟩
          · exact ⟨.waiting _, .same⟩
        | nodeSocket =>
          rw [g.handle_nodeSocket fault e hroute hentitles]
          split
          · exact ⟨.same, .same⟩
          · exact ⟨.same, .opened node⟩
        | signerSocket =>
          rw [g.handle_signerSocket fault e hroute hentitles]
          split
          · exact ⟨.same, .same⟩
          · exact ⟨.same, .attached node⟩
        | _ => cases hrole
      · obtain ⟨-, hsame, -⟩ := g.handle_refused now fault r e hroute hrole fun node hentitles =>
          hnobody ⟨node, hentitles⟩
        rw [hsame]
        exact ⟨.same, .same⟩
    · -- the other routes reach the authenticator alone
      have hauth : ∀ {α : Type} (d : Json.Decoder α) (call : α → (Handled × Gateway) × Entropy),
          (∀ c, (call c).1.2.scheduler = g.scheduler ∧ (call c).1.2.relay = g.relay) →
          (g.withBody r d e call).1.2.scheduler = g.scheduler ∧
            (g.withBody r d e call).1.2.relay = g.relay := by
        intro α d call hcall
        unfold Gateway.withBody
        split
        · next c _ => exact hcall c
        · exact ⟨rfl, rfl⟩
      have hsame : (g.handleRoute now fault r e route).1.2.scheduler = g.scheduler ∧
          (g.handleRoute now fault r e route).1.2.relay = g.relay := by
        cases route with
        | health => exact ⟨rfl, rfl⟩
        | challenge => exact hauth _ _ fun c => ⟨rfl, rfl⟩
        | register => exact hauth _ _ fun c => ⟨rfl, rfl⟩
        | recover => exact hauth _ _ fun c => ⟨rfl, rfl⟩
        | _ => exact absurd ⟨_, rfl⟩ hgated
      rw [Gateway.handle_eq g now fault r e hroute]
      exact ⟨hsame.1 ▸ .same, hsame.2 ▸ .same⟩

theorem handle_eq (s : Server) {now : Clock} {fault : Option WriteFault} {r : HttpRequest}
    {handled : Handled} {g : Gateway} {entropy : Entropy}
    (h : s.gateway.handle now fault r s.scheduling.entropy = ((handled, g), entropy)) :
    s.handle now fault r = (handled, s.withGateway g entropy) := by
  simp only [handle, h]

/-! ## What every run keeps -/

/-- What holds of a server in a run. -/
structure Sound (s : Server) : Prop where
  shared : s.scheduling.Shared
  traced : ∃ requests, s.relay.Traced requests
  numbered : s.relay.Numbered

theorem sound_start (auth : Authenticator) (scheduler : SchedulerSettings) (relay : RelaySettings)
    (clock : Clock) (entropy : Entropy) : (start auth scheduler relay clock entropy).Sound where
  shared := SchedulerRun.shared_start scheduler clock entropy
  traced := ⟨[], Relay.traced_start relay⟩
  numbered := Relay.numbered_start relay

theorem Sound.withGateway {s : Server} (h : s.Sound) (g : Gateway) (entropy : Entropy)
    (hcalls : Calls s.scheduling.scheduler g.scheduler) (hconnects : Connects s.relay g.relay) :
    (s.withGateway g entropy).Sound where
  shared := by
    obtain ⟨auth, scheduler, relay⟩ := g
    cases hcalls with
    | same => exact h.shared.frame _ rfl rfl rfl rfl rfl fun _ _ ha => ha
    | entered node => exact SchedulerRun.shared_enter h.shared node _ rfl rfl rfl
    | waiting l => exact h.shared.frame _ rfl rfl rfl rfl rfl fun _ _ ha => ha
  traced := by
    obtain ⟨requests, htraced⟩ := h.traced
    obtain ⟨auth, scheduler, relay⟩ := g
    refine ⟨requests, ?_⟩
    cases hconnects with
    | same => exact htraced
    | opened node =>
      exact htraced.shrink _ (fun _ => List.Subset.refl _) (fun _ => List.Subset.refl _)
        (fun _ e he => ⟨e, he, rfl, rfl⟩) rfl
    | attached node => exact htraced.attach node
  numbered := by
    obtain ⟨auth, scheduler, relay⟩ := g
    cases hconnects with
    | same => exact h.numbered
    | opened node => exact Relay.numbered_openStream h.numbered node
    | attached node => exact Relay.numbered_attach h.numbered node

theorem sound_step (s : Server) (h : s.Sound) (op : ServerOp) : (s.step op).Sound := by
  cases op with
  | request now fault r =>
    obtain ⟨hcalls, hconnects⟩ := handle_cases s.gateway now fault r s.scheduling.entropy
    exact h.withGateway _ _ hcalls hconnects
  | scheduling op => exact ⟨SchedulerRun.shared_next _ h.shared op, h.traced, h.numbered⟩
  | relaying now op =>
    obtain ⟨requests, htraced⟩ := h.traced
    exact ⟨h.shared, ⟨_, ClockedRelay.traced_step ⟨s.relay, now⟩ requests htraced op⟩,
      ClockedRelay.numbered_step ⟨s.relay, now⟩ h.numbered op⟩
  | auth after => exact ⟨h.shared, h.traced, h.numbered⟩

theorem sound_run (s : Server) (h : s.Sound) (ops : List ServerOp) : (s.run ops).Sound := by
  induction ops generalizing s with
  | nil => exact h
  | cons op ops ih => exact ih _ (sound_step s h op)

/-! ## Callers that wait -/

/-- A caller that waits under a number for a launch waits for one of a node. -/
structure Joined (s : Server) (node : NodeId) (call : Nat) : Prop where
  numbered : call < s.scheduling.scheduler.nextCall
  waits : ∀ launch, s.scheduling.scheduler.joins.get? call = some launch →
    s.scheduling.nodeOf launch = some node

/-- A caller that waits under a number for a process waits for one of a node. -/
structure Located (s : Server) (node : NodeId) (call : Nat) : Prop where
  numbered : call < s.scheduling.scheduler.nextCall
  waits : ∀ l, s.scheduling.scheduler.lookups.get? call = some l → l.node = node

theorem Joined.withGateway {s : Server} (h : s.Sound) {node : NodeId} {call : Nat}
    (hjoined : s.Joined node call) (g : Gateway) (entropy : Entropy)
    (hcalls : Calls s.scheduling.scheduler g.scheduler) :
    (s.withGateway g entropy).Joined node call := by
  obtain ⟨auth, scheduler, relay⟩ := g
  cases hcalls with
  | same => exact ⟨hjoined.numbered, hjoined.waits⟩
  | waiting l => exact ⟨Nat.lt_succ_of_lt hjoined.numbered, hjoined.waits⟩
  | entered entering =>
    have hadvances := h.shared.advances_enter entering
      { s.scheduling with scheduler := (s.scheduling.scheduler.enter entering).2 } rfl
    have hwaits : ∀ launch,
        (s.scheduling.scheduler.enter entering).2.joins.get? call = some launch →
          s.scheduling.scheduler.joins.get? call = some launch := by
      intro launch hlaunch
      rcases SchedulerRun.joins_enter s.scheduling.scheduler entering with
        ⟨hsame, -⟩ | ⟨launch', -, hjoins, -, -⟩
      · exact hsame ▸ hlaunch
      · rw [hjoins, Table.get?_set, if_neg (Nat.ne_of_lt hjoined.numbered)] at hlaunch
        exact hlaunch
    refine ⟨Nat.lt_of_lt_of_le hjoined.numbered ?_, fun launch hlaunch =>
      hadvances.nodes launch node (hjoined.waits launch (hwaits launch hlaunch))⟩
    exact SchedulerRun.nextCall_enter s.scheduling.scheduler entering

theorem Located.withGateway {s : Server} {node : NodeId} {call : Nat}
    (hlocated : s.Located node call) (g : Gateway) (entropy : Entropy)
    (hcalls : Calls s.scheduling.scheduler g.scheduler) :
    (s.withGateway g entropy).Located node call := by
  obtain ⟨auth, scheduler, relay⟩ := g
  cases hcalls with
  | same => exact ⟨hlocated.numbered, hlocated.waits⟩
  | waiting l =>
    refine ⟨Nat.lt_succ_of_lt hlocated.numbered, fun l' hl' => hlocated.waits l' ?_⟩
    have hget := (Table.get?_set _ _ _ _).symm.trans hl'
    rw [if_neg (Nat.ne_of_lt hlocated.numbered)] at hget
    exact hget
  | entered entering =>
    have hlookups := SchedulerRun.lookups_enter s.scheduling.scheduler entering
    refine ⟨Nat.lt_of_lt_of_le hlocated.numbered ?_, fun l hl => hlocated.waits l ?_⟩
    · exact SchedulerRun.nextCall_enter s.scheduling.scheduler entering
    · exact (congrArg (Table.get? · call) hlookups).symm.trans hl

theorem joined_step (s : Server) (h : s.Sound) {node : NodeId} {call : Nat}
    (hjoined : s.Joined node call) (op : ServerOp) : (s.step op).Joined node call := by
  cases op with
  | request now fault r =>
    obtain ⟨hcalls, -⟩ := handle_cases s.gateway now fault r s.scheduling.entropy
    exact hjoined.withGateway h _ _ hcalls
  | scheduling op =>
    have hadvances := h.shared.advances_next op
    refine ⟨Nat.lt_of_lt_of_le hjoined.numbered (SchedulerRun.nextCall_next _ op), ?_⟩
    intro launch hlaunch
    apply hadvances.nodes
    by_cases hdrop : op = .step (.dropJoin call)
    · subst hdrop
      have hget := (Table.get?_erase _ _ _).symm.trans hlaunch
      rw [if_pos rfl] at hget
      cases hget
    · have hget := (SchedulerRun.get?_joins_next _ op hjoined.numbered hdrop).symm.trans hlaunch
      split at hget
      · cases hget
      · exact hjoined.waits launch hget
  | relaying now op => exact ⟨hjoined.numbered, hjoined.waits⟩
  | auth after => exact ⟨hjoined.numbered, hjoined.waits⟩

theorem located_step (s : Server) {node : NodeId} {call : Nat} (hlocated : s.Located node call)
    (op : ServerOp) : (s.step op).Located node call := by
  cases op with
  | request now fault r =>
    obtain ⟨hcalls, -⟩ := handle_cases s.gateway now fault r s.scheduling.entropy
    exact hlocated.withGateway _ _ hcalls
  | scheduling op =>
    obtain ⟨hnext, hlookups⟩ := SchedulerRun.ages_next s.scheduling op
    exact ⟨Nat.lt_of_lt_of_le hlocated.numbered hnext,
      fun l hl => hlocated.waits l (hlookups call l hlocated.numbered hl)⟩
  | relaying now op => exact ⟨hlocated.numbered, hlocated.waits⟩
  | auth after => exact ⟨hlocated.numbered, hlocated.waits⟩

/-- Whatever happens, a caller that waits for a launch of a node is told of a process of the node
or of an error. -/
theorem joined_run (s : Server) (h : s.Sound) {node : NodeId} {call : Nat}
    (hjoined : s.Joined node call) (ops : List ServerOp) {a : Assignment}
    (htold : ((s.run ops).scheduling.scheduler.pollJoin call).1 = some (.ok a)) :
    a.node = node := by
  induction ops generalizing s with
  | nil =>
    change (s.scheduling.scheduler.pollJoin call).1 = _ at htold
    rw [SchedulerRun.pollJoin_eq, Option.bind_eq_some_iff] at htold
    obtain ⟨launch, hlaunch, hresult⟩ := htold
    exact (h.shared.tells_of_ended (hjoined.waits launch hlaunch) hresult).2
  | cons op ops ih => exact ih _ (sound_step s h op) (joined_step s h hjoined op) htold

theorem located_run (s : Server) (h : s.Sound) {node : NodeId} {call : Nat}
    (hlocated : s.Located node call) (ops : List ServerOp) (now : Nat) {a : Assignment}
    (htold : ((s.run ops).scheduling.scheduler.pollLookup now call).1 = some (some a)) :
    a.node = node := by
  induction ops generalizing s with
  | nil =>
    change (s.scheduling.scheduler.pollLookup now call).1 = _ at htold
    unfold Scheduler.pollLookup at htold
    split at htold
    · cases htold
    · next l hl =>
      split at htold
      · next a' ha' =>
        obtain rfl := Option.some.inj (Option.some.inj htold)
        rw [h.shared.registered _ _ ha', hlocated.waits l hl]
      · split at htold <;> cases htold
  | cons op ops ih => exact ih _ (sound_step s h op) (located_step s hlocated op) htold

end Server

end SigningGateway
