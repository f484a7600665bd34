import SigningGateway.Proofs.Gate.Server

/-!
# What a request reaches

A request on a route that acts for a node reaches what is of the node that it is entitled to, and
nothing at all if there is no such node.  This holds in every state of the server: whatever calls
wait, launches run and WebSockets are up, and whatever the store holds.

    entitled to node → s.ActsFor node after ∧ s.Answers after r node handled route
-/

namespace SigningGateway

/-- A table has gained new keys, all of whose values pass a test, and has not changed otherwise. -/
def Table.Gains {κ α : Type} [DecidableEq κ] (p : α → Prop) (t t' : Table κ α) : Prop :=
  ∀ k, t'.get? k = t.get? k ∨ t.get? k = none ∧ ∃ v, t'.get? k = some v ∧ p v

theorem Table.gains_refl {κ α : Type} [DecidableEq κ] (p : α → Prop) (t : Table κ α) :
    t.Gains p t :=
  fun _ => Or.inl rfl

theorem Table.gains_set {κ α : Type} [DecidableEq κ] {p : α → Prop} {t : Table κ α} {k : κ} {v : α}
    (hfree : t.get? k = none) (hv : p v) : t.Gains p (t.set k v) := by
  intro k'
  rw [get?_set]
  split
  · next heq => exact Or.inr ⟨heq ▸ hfree, v, rfl, hv⟩
  · exact Or.inl rfl

namespace Server

/-- A server changes in nothing but what is of a node: launches, lookups, streams and sessions of
the node come, and the store, the registry and the counts stay. -/
structure ActsFor (node : NodeId) (s after : Server) : Prop where
  auth : after.auth = s.auth
  tasks : after.scheduling = { s.scheduling with scheduler := after.scheduling.scheduler }
  registry : after.scheduling.scheduler.registry = s.scheduling.scheduler.registry
  counts : after.scheduling.scheduler.started = s.scheduling.scheduler.started ∧
    after.scheduling.scheduler.failed = s.scheduling.scheduler.failed
  launches : s.scheduling.scheduler.launches.Gains (fun l => l.node = node)
    after.scheduling.scheduler.launches
  inFlight : ∀ other, after.scheduling.scheduler.inFlight.get? other =
    s.scheduling.scheduler.inFlight.get? other ∨
      other = node ∧ s.scheduling.scheduler.inFlight.get? other = none
  lookups : ∀ call l, after.scheduling.scheduler.lookups.get? call = some l →
    s.scheduling.scheduler.lookups.get? call = some l ∨ l.node = node
  streams : s.relay.streams.Gains (fun e => e.node = node) after.relay.streams
  sessions : s.relay.sessions.Gains
    (fun e => e.node = node ∧ ∀ request ∈ e.handed, request.context.node = node)
    after.relay.sessions
  queues : ∀ other, other ≠ node → after.relay.queues.get? other = s.relay.queues.get? other
  grants : ∀ other dbid, other ≠ node →
    after.relay.grants.get? other dbid = s.relay.grants.get? other dbid

/-- What a request on a route that acts for a node is answered, at once or when its caller has
waited through any further steps: a process of the node, or a new stream or session of it. -/
def Answers (s after : Server) (r : HttpRequest) (node : NodeId) (handled : Handled) :
    Route → Prop
  | .schedule =>
    (∃ a, s.scheduling.scheduler.registry.get? node = some a ∧ a.node = node ∧
      handled = .replied (Gateway.locationReply a) ∧ after = s) ∨
    ∃ call, handled = .scheduling call ∧ ∀ ops a,
      ((after.run ops).scheduling.scheduler.pollJoin call).1 = some (.ok a) → a.node = node
  | .locate =>
    (∃ found, s.scheduling.scheduler.registry.get? node = found ∧ (∀ a ∈ found, a.node = node) ∧
      handled = .replied (Gateway.locateReply node found) ∧ after = s) ∨
    ∃ call, handled = .locating node call ∧ ∀ ops now a,
      ((after.run ops).scheduling.scheduler.pollLookup now call).1 = some (some a) → a.node = node
  | .nodeSocket =>
    (∃ status, r.checkUpgrade = .error status ∧ handled = .replied (.bare status) ∧ after = s) ∨
    ∃ stream, handled = .nodeSocket ⟨stream, []⟩ ∧ s.relay.streams.get? stream = none ∧
      after.relay.streams.get? stream = some ⟨node, false⟩
  | .signerSocket =>
    (∃ status, r.checkUpgrade = .error status ∧ handled = .replied (.bare status) ∧ after = s) ∨
    ∃ session handed, handled = .signerSocket ⟨session⟩ ∧
      s.relay.sessions.get? session = none ∧
      after.relay.sessions.get? session = some ⟨node, handed, 0⟩ ∧
      ∀ request ∈ handed, request.context.node = node
  | _ => True

theorem ActsFor.refl (node : NodeId) (s : Server) : s.ActsFor node s where
  auth := rfl
  tasks := rfl
  registry := rfl
  counts := ⟨rfl, rfl⟩
  launches := Table.gains_refl _ _
  inFlight := fun _ => Or.inl rfl
  lookups := fun _ _ hl => Or.inl hl
  streams := Table.gains_refl _ _
  sessions := Table.gains_refl _ _
  queues := fun _ _ => rfl
  grants := fun _ _ _ => rfl

/-! ## The routes -/

section
variable {s : Server} (h : s.Sound) (node : NodeId)
include h

/-- A caller that enters starts a launch of its node, or none. -/
theorem actsFor_entered : s.ActsFor node
    (s.withGateway { s.gateway with scheduler := (s.scheduling.scheduler.enter node).2 }
      s.scheduling.entropy) := by
  rcases s.scheduling.scheduler.enter_cases node with
    ⟨joins, nextCall, henter⟩ | ⟨hfree, -, joins, nextCall, henter⟩
  · rw [henter]
    exact ⟨rfl, rfl, rfl, ⟨rfl, rfl⟩, Table.gains_refl _ _, fun _ => Or.inl rfl,
      fun _ _ hl => Or.inl hl, Table.gains_refl _ _, Table.gains_refl _ _, fun _ _ => rfl,
      fun _ _ _ => rfl⟩
  · rw [henter]
    have hnew : s.scheduling.scheduler.launches.get? s.scheduling.scheduler.nextLaunch = none := by
      rw [← SchedulerRun.progress_eq_none_iff]
      cases hp : s.scheduling.progress s.scheduling.scheduler.nextLaunch with
      | none => rfl
      | some x => exact absurd (h.shared.numbers _ x hp) (Nat.lt_irrefl _)
    refine ⟨rfl, rfl, rfl, ⟨rfl, rfl⟩, Table.gains_set hnew rfl, fun other => ?_,
      fun _ _ hl => Or.inl hl, Table.gains_refl _ _, Table.gains_refl _ _, fun _ _ => rfl,
      fun _ _ _ => rfl⟩
    by_cases hother : other = node
    · exact Or.inr ⟨hother, hother ▸ hfree⟩
    · exact Or.inl ((Table.get?_set _ _ _ _).trans (if_neg hother))

theorem actsFor_opened : s.ActsFor node
    (s.withGateway { s.gateway with relay := (s.relay.openStream node).2 }
      s.scheduling.entropy) := by
  refine ⟨rfl, rfl, rfl, ⟨rfl, rfl⟩, Table.gains_refl _ _, fun _ => Or.inl rfl,
    fun _ _ hl => Or.inl hl, Table.gains_set h.numbered.free.1 rfl, Table.gains_refl _ _,
    fun _ _ => rfl, fun other dbid hother => ?_⟩
  refine (Table.get?_set _ _ _ _).trans (if_neg ?_)
  intro heq
  exact hother (Prod.mk.inj heq).1

/-- The requests that wait in the queue of a node are of the node. -/
theorem node_of_queued (request : Request)
    (hmem : request ∈ Relay.prune s.relay.pending (s.relay.queueOf node).outstanding) :
    request.context.node = node := by
  obtain ⟨requests, htraced⟩ := h.traced
  exact (htraced.queued node request (List.mem_filter.1 hmem).1).1

theorem actsFor_attached : s.ActsFor node
    (s.withGateway { s.gateway with relay := (s.relay.attach node).2 } s.scheduling.entropy) :=
  ⟨rfl, rfl, rfl, ⟨rfl, rfl⟩, Table.gains_refl _ _, fun _ => Or.inl rfl,
    fun _ _ hl => Or.inl hl, Table.gains_refl _ _,
    Table.gains_set h.numbered.free.2 ⟨rfl, node_of_queued h node⟩,
    fun _ hother => (Table.get?_set _ _ _ _).trans (if_neg hother), fun _ _ _ => rfl⟩

/-- A caller that enters where nothing runs waits for a launch of its node. -/
theorem joined_entered (hvacant : s.scheduling.scheduler.registry.get? node = none) :
    (s.withGateway { s.gateway with scheduler := (s.scheduling.scheduler.enter node).2 }
      s.scheduling.entropy).Joined node s.scheduling.scheduler.nextCall := by
  have hsound := h.withGateway
    { s.gateway with scheduler := (s.scheduling.scheduler.enter node).2 } s.scheduling.entropy
    (.entered node) .same
  rcases SchedulerRun.joins_enter s.scheduling.scheduler node with
    ⟨-, -, a, hrecorded⟩ | ⟨launch, -, hjoins, hnext, hflight⟩
  · cases hvacant.symm.trans hrecorded
  · refine ⟨?_, fun launch' hlaunch => ?_⟩
    · exact hnext ▸ Nat.lt_succ_self _
    · have hget := (congrArg (Table.get? · _) hjoins).symm.trans hlaunch
      rw [Table.get?_set, if_pos rfl] at hget
      obtain rfl := Option.some.inj hget
      obtain ⟨p, hp⟩ := hsound.shared.within node launch hflight
      exact (SchedulerRun.nodeOf_eq_some_iff _ _ _).2 ⟨p, hp⟩

omit h in
theorem located_waiting (deadline : Nat) :
    (s.withGateway { s.gateway with scheduler := { s.scheduling.scheduler with
        lookups := s.scheduling.scheduler.lookups.set s.scheduling.scheduler.nextCall
          ⟨node, deadline⟩
        nextCall := s.scheduling.scheduler.nextCall + 1 } } s.scheduling.entropy).Located node
      s.scheduling.scheduler.nextCall := by
  refine ⟨Nat.lt_succ_self _, fun l hl => ?_⟩
  have hget := (Table.get?_set _ _ _ _).symm.trans hl
  rw [if_pos rfl] at hget
  rw [← Option.some.inj hget]

omit h in
theorem actsFor_waiting (deadline : Nat) : s.ActsFor node
    (s.withGateway { s.gateway with scheduler := { s.scheduling.scheduler with
        lookups := s.scheduling.scheduler.lookups.set s.scheduling.scheduler.nextCall
          ⟨node, deadline⟩
        nextCall := s.scheduling.scheduler.nextCall + 1 } } s.scheduling.entropy) := by
  refine ⟨rfl, rfl, rfl, ⟨rfl, rfl⟩, Table.gains_refl _ _, fun _ => Or.inl rfl,
    fun call l hl => ?_, Table.gains_refl _ _, Table.gains_refl _ _, fun _ _ => rfl,
    fun _ _ _ => rfl⟩
  have hget := (Table.get?_set _ _ _ _).symm.trans hl
  split at hget
  · rw [← Option.some.inj hget]
    exact Or.inr rfl
  · exact Or.inl hget

section
variable {now : Clock} (fault : Option WriteFault) {r : HttpRequest}

/-- An entitled caller that asks for its process is told where it is, or waits for a launch. -/
theorem acts_schedule (hroute : Route.find r.method r.path = .ok .schedule)
    (hentitles : s.gateway.Entitles now.wall r .schedule node) :
    s.ActsFor node (s.handle now fault r).2 ∧
      s.Answers (s.handle now fault r).2 r node (s.handle now fault r).1 .schedule := by
  have hhandle := s.gateway.handle_schedule fault s.scheduling.entropy hroute hentitles
  cases hregistry : s.scheduling.scheduler.registry.get? node with
  | some a =>
    rw [show s.gateway.scheduler.registry.get? node = some a from hregistry] at hhandle
    rw [s.handle_eq hhandle]
    exact ⟨.refl node s, Or.inl ⟨a, hregistry, h.shared.registered node a hregistry, rfl, rfl⟩⟩
  | none =>
    rw [show s.gateway.scheduler.registry.get? node = none from hregistry] at hhandle
    rw [s.handle_eq hhandle]
    refine ⟨actsFor_entered h node, Or.inr ⟨_, rfl, fun ops a ha => ?_⟩⟩
    exact joined_run _ (h.withGateway _ _ (.entered node) .same) (joined_entered h node hregistry)
      ops ha

/-- An entitled caller that looks for the process of a node is told of it, or waits for it. -/
theorem acts_locate (hroute : Route.find r.method r.path = .ok .locate)
    (hentitles : s.gateway.Entitles now.wall r .locate node) :
    s.ActsFor node (s.handle now fault r).2 ∧
      s.Answers (s.handle now fault r).2 r node (s.handle now fault r).1 .locate := by
  rcases s.gateway.handle_locate fault s.scheduling.entropy hroute hentitles with
    hhandle | hhandle
  · rw [s.handle_eq hhandle]
    refine ⟨.refl node s, Or.inl ⟨_, rfl, fun a ha => ?_, rfl, rfl⟩⟩
    exact h.shared.registered node a ha
  · rw [s.handle_eq hhandle]
    refine ⟨actsFor_waiting node _, Or.inr ⟨_, rfl, fun ops now a ha => ?_⟩⟩
    exact located_run _ (h.withGateway _ _ (.waiting _) .same) (located_waiting node _) ops now ha

/-- An entitled node that asks for a WebSocket gets a stream of its own. -/
theorem acts_nodeSocket (hroute : Route.find r.method r.path = .ok .nodeSocket)
    (hentitles : s.gateway.Entitles now.wall r .nodeSocket node) :
    s.ActsFor node (s.handle now fault r).2 ∧
      s.Answers (s.handle now fault r).2 r node (s.handle now fault r).1 .nodeSocket := by
  have hhandle := s.gateway.handle_nodeSocket fault s.scheduling.entropy hroute hentitles
  cases hupgrade : r.checkUpgrade with
  | error status =>
    rw [hupgrade] at hhandle
    rw [s.handle_eq hhandle]
    exact ⟨.refl node s, Or.inl ⟨status, hupgrade, rfl, rfl⟩⟩
  | ok _ =>
    rw [hupgrade] at hhandle
    rw [s.handle_eq hhandle]
    exact ⟨actsFor_opened h node, Or.inr ⟨_, rfl, h.numbered.free.1,
      (Table.get?_set _ _ _ _).trans (if_pos rfl)⟩⟩

/-- An entitled signer that asks for a WebSocket gets a session of its node, with the requests that
wait for it. -/
theorem acts_signerSocket (hroute : Route.find r.method r.path = .ok .signerSocket)
    (hentitles : s.gateway.Entitles now.wall r .signerSocket node) :
    s.ActsFor node (s.handle now fault r).2 ∧
      s.Answers (s.handle now fault r).2 r node (s.handle now fault r).1 .signerSocket := by
  have hhandle := s.gateway.handle_signerSocket fault s.scheduling.entropy hroute hentitles
  cases hupgrade : r.checkUpgrade with
  | error status =>
    rw [hupgrade] at hhandle
    rw [s.handle_eq hhandle]
    exact ⟨.refl node s, Or.inl ⟨status, hupgrade, rfl, rfl⟩⟩
  | ok _ =>
    rw [hupgrade] at hhandle
    rw [s.handle_eq hhandle]
    exact ⟨actsFor_attached h node, Or.inr ⟨_, _, rfl, h.numbered.free.2,
      (Table.get?_set _ _ _ _).trans (if_pos rfl), node_of_queued h node⟩⟩

end

end

/-- In every state of the server, a request on one of the four routes that act for a node is refused
and changes nothing unless it is entitled to a node: its headers hold a certificate and a proof that
the store accepts for the method and path of the request, the certificate is of the role that the
route asks for, and the body names the node of the certificate where the route reads it.  An
entitled request changes nothing but what is of that node, and all that it is told, at once or
later, is of that node. -/
theorem acts_for_entitled_node (auth : Authenticator) (scheduler : SchedulerSettings)
    (relay : RelaySettings) (clock : Clock) (entropy : Entropy) (before : List ServerOp)
    (now : Clock) (fault : Option WriteFault) (r : HttpRequest) (route : Route) (role : Role)
    (hroute : Route.find r.method r.path = .ok route) (hrole : route.role? = some role) :
    let s := (start auth scheduler relay clock entropy).run before
    let out := s.handle now fault r
    ((∀ node, ¬s.gateway.Entitles now.wall r route node) →
      Gateway.Refuses out.1 ∧ out.2 = s) ∧
    ∀ node, s.gateway.Entitles now.wall r route node →
      s.ActsFor node out.2 ∧ s.Answers out.2 r node out.1 route := by
  intro s out
  have h : s.Sound := sound_run _ (sound_start auth scheduler relay clock entropy) before
  constructor
  · intro hnobody
    obtain ⟨hrefused, hg, he⟩ := s.gateway.handle_refused now fault r s.scheduling.entropy hroute
      hrole hnobody
    have hout : out = ((s.gateway.handle now fault r s.scheduling.entropy).1.1,
        s.withGateway s.gateway s.scheduling.entropy) :=
      s.handle_eq (Prod.ext (Prod.ext rfl hg) he)
    rw [hout]
    exact ⟨hrefused, rfl⟩
  · intro node hentitles
    cases route with
    | schedule => exact acts_schedule h node fault hroute hentitles
    | locate => exact acts_locate h node fault hroute hentitles
    | nodeSocket => exact acts_nodeSocket h node fault hroute hentitles
    | signerSocket => exact acts_signerSocket h node fault hroute hentitles
    | _ => cases hrole

/-- While a node is connected and a request of it waits, the WebSocket of its signer is refused to
whoever shows no certificate, and is opened for the device that holds the current one. -/
theorem signer_opened_with_certificate :
    let node : NodeId := ⟨List.replicate 32 7, rfl⟩
    let issuer : Issuer := ⟨List.replicate 32 1⟩
    let c := (issuer.issue node .device "phone" ⟨5, 0⟩
      ⟨fun i => List.replicate 32 (UInt8.ofNat i), 2⟩).1.1
    let registered : Registration := ⟨node, ⟨[], none, "main"⟩, ⟨5, 0⟩, [.ofCertificate c], none⟩
    let auth : Authenticator :=
      .start ⟨10, 100⟩ ⟨issuer, Table.empty.set node registered, none⟩ fun _ _ _ => .ok ()
    let random : Entropy := ⟨fun _ => List.replicate 32 0, 0⟩
    let before : List ServerOp := [.relaying 5 (.openStream node), .relaying 6 (.submit 0 0 4 [1])]
    let s := (start auth ⟨30, 60⟩ ⟨100, 10⟩ ⟨⟨0, 0⟩, 0⟩ random).run before
    let now : Clock := ⟨⟨9, 0⟩, 9⟩
    let upgrade := [("connection", "Upgrade"), ("upgrade", "websocket"),
      ("sec-websocket-version", "13"), ("sec-websocket-key", "AAAAAAAAAAAAAAAAAAAAAA==")]
    let credential := [("x-device-cert", c.toHeader), ("x-device-timestamp", "9"),
      ("x-device-signature", Hex.encode (Ed25519.sign (List.replicate 32 2)
        (Message.request 9 "GET" "/v1/hsm/signer")))]
    let unsigned : HttpRequest := ⟨"GET", "/v1/hsm/signer", upgrade, [], true⟩
    let signed : HttpRequest := ⟨"GET", "/v1/hsm/signer", upgrade ++ credential, [], true⟩
    (Route.find "GET" "/v1/hsm/signer" = .ok .signerSocket ∧
        Route.role? .signerSocket = some .device) ∧
      (Gateway.Refuses (s.handle now none unsigned).1 ∧ (s.handle now none unsigned).2 = s) ∧
      s.gateway.Entitles now.wall signed .signerSocket node ∧
      s.ActsFor node (s.handle now none signed).2 ∧
      ∃ session handed, (s.handle now none signed).1 = .signerSocket ⟨session⟩ ∧
        s.relay.sessions.get? session = none ∧
        (s.handle now none signed).2.relay.sessions.get? session = some ⟨node, handed, 0⟩ ∧
        ∀ request ∈ handed, request.context.node = node := by
  have haccepts : Ed25519.Accepts (List.replicate 32 2)
      (Message.request 9 "GET" "/v1/hsm/signer") := by
    unfold Ed25519.Accepts
    decide +kernel
  intro node issuer c registered auth random before s now upgrade credential unsigned signed
  have hroute : Route.find "GET" "/v1/hsm/signer" = .ok .signerSocket :=
    Route.find_own .signerSocket
  have hnobody : ∀ node, ¬s.gateway.Entitles now.wall unsigned .signerSocket node := by
    rintro node ⟨c, proof, caller, hshows, -⟩
    obtain ⟨text, htext, -⟩ := hshows.certified
    have hnone : unsigned.value? Gateway.certificateHeader = none := by decide +kernel
    rw [HttpRequest.header?, hnone] at htext
    cases htext
  have hentitles : s.gateway.Entitles now.wall signed .signerSocket node := by
    have hissued : IssuedBy issuer node .device ⟨5, 0⟩ c := issuedBy_issue _ _ _ _ _ _
    have hkey : c.body.publicKey = Ed25519.publicKey (List.replicate 32 2) :=
      congrArg Ed25519.publicKey List.take_replicate
    have hverified : Ed25519.verify issuer.publicKey c.body.signedBytes c.signature = true := by
      decide +kernel
    refine Gateway.entitles_of_current registered _ 9 hissued ?_ hkey hverified rfl ?_ (by decide)
      haccepts ?_ ?_ ?_ rfl trivial
    · exact ⟨by decide, by decide, Or.inl (by decide)⟩
    · simp [registered, Registration.holds, IssuedCertificate.ofCertificate]
    · simp [signed, upgrade, credential, HttpRequest.value?, HttpRequest.lower,
        Gateway.certificateHeader]
    · simp [signed, upgrade, credential, HttpRequest.value?, HttpRequest.lower,
        Gateway.timestampHeader]
      decide
    · simp [signed, upgrade, credential, HttpRequest.value?, HttpRequest.lower,
        Gateway.signatureHeader]
  have hupgrade : signed.checkUpgrade = .ok () := by
    simp [signed, upgrade, HttpRequest.checkUpgrade, HttpRequest.headerMentions,
      HttpRequest.headerIs, HttpRequest.value?, HttpRequest.lower]
  have hrefused := (acts_for_entitled_node auth ⟨30, 60⟩ ⟨100, 10⟩ ⟨⟨0, 0⟩, 0⟩ random before now
    none unsigned .signerSocket .device hroute rfl).1 hnobody
  obtain ⟨hacts, hanswers⟩ := (acts_for_entitled_node auth ⟨30, 60⟩ ⟨100, 10⟩ ⟨⟨0, 0⟩, 0⟩ random
    before now none signed .signerSocket .device hroute rfl).2 node hentitles
  refine ⟨⟨hroute, rfl⟩, hrefused, hentitles, hacts, ?_⟩
  rcases hanswers with ⟨status, hstatus, -⟩ | hopened
  · cases hupgrade.symm.trans hstatus
  · exact hopened

end Server

end SigningGateway
