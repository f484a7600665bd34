import SigningGateway.Api.Gateway
import SigningGateway.Proofs.Auth.Certificates
import SigningGateway.Proofs.Scheduler.Run

/-!
# Who may ask for what

Four routes act for a node: those that have its process run or tell where it runs, and those of its
WebSockets.  A request acts for a node if its headers hold a certificate and a proof that the store
accepts for the method and path of the request, the certificate is of the node and of the role that
the route asks for, and the body, where there is one, names the same node.  Any other request on one
of these routes is refused and changes nothing.

    callerOf = ok caller ↔ the headers show the caller in the role              (callerOf_ok_iff)
    current certificate and a proof with its key → entitled                 (entitles_of_current)
    no node entitled → refused, nothing changed                                 (handle_refused)
    entitled to a node → what the route does for the node            (handle_schedule, ...)
-/

namespace SigningGateway

/-- The role that a route asks of its callers. -/
def Route.role? : Route → Option Role
  | .schedule | .locate | .signerSocket => some .device
  | .nodeSocket => some .node
  | .health | .challenge | .register | .recover => none

/-- A route answers to its own method and path. -/
theorem Route.find_own (route : Route) : Route.find route.method route.path = .ok route := by
  cases route <;> decide

theorem Route.find_eq_ok {m p : String} {route : Route} (h : Route.find m p = .ok route) :
    p = route.path ∧ route.takes m = true := by
  unfold Route.find at h
  split at h
  · cases h
  · next found hfound =>
    split at h
    · next htakes =>
      obtain rfl := Except.ok.inj h
      have hpath := List.find?_some hfound
      exact ⟨(of_decide_eq_true hpath).symm, htakes⟩
    · cases h

theorem Error.status_ge (cause : Error) : 400 ≤ cause.status := by
  unfold status
  split <;> decide

theorem HttpRequest.le_of_decodeBody {α : Type} (r : HttpRequest) (d : Json.Decoder α)
    (status : Nat) (h : r.decodeBody d = .error status) : 400 ≤ status := by
  unfold decodeBody at h
  repeat' split at h
  all_goals cases h
  all_goals decide

namespace Gateway

/-! ## Callers -/

/-- The headers of a request hold a certificate and a proof that the store accepts. -/
structure Shows (g : Gateway) (now : Moment) (r : HttpRequest) (c : Certificate)
    (proof : RequestProof) (caller : AuthenticatedNode) : Prop where
  certified : ∃ text, r.header? certificateHeader = some text ∧
    Certificate.ofHeader text = .ok c
  signed : ∃ timestamp signature, r.header? timestampHeader = some timestamp ∧
    r.header? signatureHeader = some signature ∧
    RequestProof.ofHeaders timestamp signature = .ok proof
  accepted : g.auth.store.authenticate now c r.method r.path proof = .ok caller

/-- The body of a request names a node, where the route reads it. -/
def Names (r : HttpRequest) (node : NodeId) : Route → Prop
  | .schedule => ∃ c, r.decodeBody ScheduleCall.decode = .ok c ∧ c.node = node
  | .locate => ∃ c, r.decodeBody LocateCall.decode = .ok c ∧ c.node = node
  | _ => True

/-- A request on a route may act for a node. -/
def Entitles (g : Gateway) (now : Moment) (r : HttpRequest) (route : Route) (node : NodeId) :
    Prop :=
  ∃ c proof caller, g.Shows now r c proof caller ∧ route.role? = some c.body.role ∧
    c.body.node = node ∧ Names r node route

theorem header_ok_iff (r : HttpRequest) (name value : String) :
    r.header name = .ok value ↔ r.header? name = some value := by
  unfold HttpRequest.header
  split
  · next v hv => rw [hv, Except.ok.injEq, Option.some.injEq]
  · next hnone =>
    rw [hnone]
    constructor <;> intro h <;> cases h

theorem bind_ok_iff {α β : Type} (x : Except Error α) (f : α → Except Error β) (b : β) :
    (x >>= f) = .ok b ↔ ∃ a, x = .ok a ∧ f a = .ok b := by
  cases x with
  | error cause => simp [bind, Except.bind]
  | ok a => simp [bind, Except.bind]

/-- The headers prove who sent a request just if the store accepts what they hold. -/
theorem callerOf_ok_iff (g : Gateway) (now : Moment) (role : Role) (r : HttpRequest)
    (caller : AuthenticatedNode) :
    g.callerOf now role r = .ok caller ↔
      (∃ c proof, g.Shows now r c proof caller) ∧ caller.role = role := by
  have hrole : ∀ caller' : AuthenticatedNode,
      (if caller'.role = role then pure caller' else throw (wrongRole caller'.role role) :
        Except Error AuthenticatedNode) = .ok caller ↔ caller' = caller ∧ caller.role = role := by
    intro caller'
    split
    · next h =>
      constructor
      · rintro ⟨⟩
        exact ⟨rfl, h⟩
      · rintro ⟨rfl, -⟩
        rfl
    · next h =>
      constructor
      · rintro ⟨⟩
      · rintro ⟨rfl, h'⟩
        exact absurd h' h
  unfold callerOf
  simp only [bind_ok_iff, header_ok_iff, hrole]
  constructor
  · rintro ⟨text, htext, c, hc, timestamp, htimestamp, signature, hsignature, proof, hproof,
      caller', haccepted, rfl, hrole⟩
    exact ⟨⟨c, proof, ⟨text, htext, hc⟩, ⟨timestamp, signature, htimestamp, hsignature, hproof⟩,
      haccepted⟩, hrole⟩
  · rintro ⟨⟨c, proof, ⟨text, htext, hc⟩, ⟨timestamp, signature, htimestamp, hsignature, hproof⟩,
      haccepted⟩, hrole⟩
    exact ⟨text, htext, c, hc, timestamp, htimestamp, signature, hsignature, proof, hproof,
      caller, haccepted, rfl, hrole⟩

/-- The caller that the headers show is the holder of the certificate. -/
theorem Shows.caller {g : Gateway} {now : Moment} {r : HttpRequest} {c : Certificate}
    {proof : RequestProof} {caller : AuthenticatedNode} (h : g.Shows now r c proof caller) :
    caller.node = c.body.node ∧ caller.role = c.body.role := by
  obtain ⟨rfl, -⟩ := (Store.authenticate_ok_iff _ _ _ _ _ _ _).1 h.accepted
  exact ⟨rfl, rfl⟩

/-- Who is entitled to a node has proven so, and those that have proven so are entitled to their
node unless the body names another one. -/
theorem entitles_iff (g : Gateway) (now : Moment) (r : HttpRequest) (route : Route) (role : Role)
    (hrole : route.role? = some role) (node : NodeId) :
    g.Entitles now r route node ↔
      ∃ caller, g.callerOf now role r = .ok caller ∧ caller.node = node ∧ Names r node route := by
  constructor
  · rintro ⟨c, proof, caller, hshows, hasked, hnode, hnames⟩
    obtain ⟨hcaller, hcallerRole⟩ := hshows.caller
    rw [hrole, Option.some.injEq] at hasked
    refine ⟨caller, (callerOf_ok_iff _ _ _ _ _).2 ⟨⟨c, proof, hshows⟩, ?_⟩, ?_, hnames⟩
    · rw [hcallerRole, hasked]
    · rw [hcaller, hnode]
  · rintro ⟨caller, hcaller, hnode, hnames⟩
    obtain ⟨⟨c, proof, hshows⟩, hcallerRole⟩ := (callerOf_ok_iff _ _ _ _ _).1 hcaller
    obtain ⟨hsame, hsameRole⟩ := hshows.caller
    refine ⟨c, proof, caller, hshows, ?_, hsame ▸ hnode, hnames⟩
    rw [hrole, ← hsameRole, hcallerRole]

/-! ## Headers -/

theorem header?_of_visible {r : HttpRequest} {name value : String} (h : r.value? name = some value)
    (hvisible : ∀ c ∈ value.toList, HttpRequest.isVisible c = true) :
    r.header? name = some value := by
  rw [HttpRequest.header?, h]
  exact if_pos (List.all_eq_true.2 hvisible)

theorem isVisible_of_isDigit (c : Char) (h : c.isDigit = true) :
    HttpRequest.isVisible c = true := by
  simp only [Char.isDigit, Bool.and_eq_true, decide_eq_true_eq, UInt32.le_iff_toNat_le] at h
  simp only [HttpRequest.isVisible, Char.le_def, UInt32.le_iff_toNat_le, Bool.or_eq_true,
    Bool.and_eq_true, decide_eq_true_eq]
  exact Or.inl ⟨Nat.le_trans (by decide) h.1, Nat.le_trans h.2 (by decide)⟩

/-- The headers made of a certificate and of a proof show both, if the store accepts them. -/
theorem shows_of_headers {g : Gateway} {now : Moment} {r : HttpRequest} {c : Certificate}
    {proof : RequestProof} {caller : AuthenticatedNode} (hdated : c.body.issuedAt.IsDated)
    (hcertificate : r.value? certificateHeader = some c.toHeader)
    (htimestamp : r.value? timestampHeader = some proof.timestampHeader)
    (hsignature : r.value? signatureHeader = some proof.signatureHeader)
    (haccepted : g.auth.store.authenticate now c r.method r.path proof = .ok caller) :
    g.Shows now r c proof caller := by
  have hhex (bytes : Bytes) : ∀ c ∈ (Hex.encode bytes).toList, HttpRequest.isVisible c = true :=
    Hex.forall_mem_encode (by decide) bytes
  have htext : ∀ c ∈ proof.timestampHeader.toList, HttpRequest.isVisible c = true :=
    forall_mem_toString (by decide) isVisible_of_isDigit _
  exact ⟨⟨_, header?_of_visible hcertificate (hhex _),
      c.ofHeader_of_holds hdated _ (headerHolds_self _)⟩,
    ⟨_, _, header?_of_visible htimestamp htext, header?_of_visible hsignature (hhex _),
      proof.ofHeaders_of_holds _ _ (headerHolds_self _) (headerHolds_self _)⟩, haccepted⟩

/-- Who holds the current certificate of a node is entitled to the node, by the headers made of the
certificate and of a proof with its key, close in time, if Ed25519 accepts the two signatures. -/
theorem entitles_of_current {g : Gateway} {now issuedAt : Moment} {r : HttpRequest} {route : Route}
    {node : NodeId} {role : Role} {c : Certificate} (registration : Registration) (seed : Bytes)
    (timestamp : Int64) (hissued : IssuedBy g.auth.store.issuer node role issuedAt c)
    (hdated : issuedAt.IsDated) (hkey : c.body.publicKey = Ed25519.publicKey seed)
    (hverified :
      Ed25519.verify g.auth.store.issuer.publicKey c.body.signedBytes c.signature = true)
    (hregistration : g.auth.store.registration node = some registration)
    (hholds : registration.holds role c.body.serial = true)
    (hclose : (now.seconds - timestamp.toInt).natAbs ≤ maxRequestSkew)
    (haccepts : Ed25519.Accepts seed (Message.request timestamp r.method r.path))
    (hcertificate : r.value? certificateHeader = some c.toHeader)
    (htimestamp : r.value? timestampHeader = some (toString timestamp.toInt))
    (hsignature : r.value? signatureHeader =
      some (Hex.encode (Ed25519.sign seed (Message.request timestamp r.method r.path))))
    (hrole : route.role? = some role) (hnames : Names r node route) :
    g.Entitles now r route node := by
  obtain rfl := hissued.node
  obtain rfl := hissued.role
  obtain rfl := hissued.issuedAt
  let proof : RequestProof :=
    ⟨timestamp, Ed25519.sign seed (Message.request timestamp r.method r.path)⟩
  have hproof : c.checkRequest r.method r.path proof now.seconds = .ok () := by
    rw [Certificate.checkRequest, hkey]
    exact (RequestProof.check_made seed r.method r.path timestamp now.seconds).2 ⟨hclose, haccepts⟩
  have haccepted : g.auth.store.authenticate now c r.method r.path proof =
      .ok ⟨c.body.node, c.body.serial, c.body.role⟩ :=
    (Store.authenticate_ok_iff _ _ _ _ _ _ _).2
      ⟨rfl, hissued.check_iff.2 hverified, hproof, registration, hregistration, hholds⟩
  exact ⟨c, proof, _, shows_of_headers hdated hcertificate htimestamp hsignature haccepted, hrole,
    rfl, hnames⟩

/-! ## Refusals -/

/-- A handled request that is refused. -/
def Refuses (handled : Handled) : Prop := ∃ reply, handled = .replied reply ∧ 400 ≤ reply.status

theorem refuses_hideBody (r : HttpRequest) {handled : Handled} (h : Refuses handled) :
    Refuses (hideBody r handled) := by
  obtain ⟨reply, rfl, hstatus⟩ := h
  refine ⟨_, rfl, ?_⟩
  split
  · exact hstatus
  · exact hstatus

theorem hideBody_bare (r : HttpRequest) (status : Nat) :
    hideBody r (.replied (.bare status)) = .replied (.bare status) := by
  rw [hideBody]
  split <;> rfl

theorem hideBody_post (r : HttpRequest) (handled : Handled) (h : r.method = "POST") :
    hideBody r handled = handled := by
  unfold hideBody
  split
  · rw [h, if_neg (by decide)]
  · rfl

theorem method_of_post {r : HttpRequest} {route : Route}
    (hroute : Route.find r.method r.path = .ok route) (hpost : route.method = "POST") :
    r.method = "POST" := by
  have htakes := (Route.find_eq_ok hroute).2
  rw [Route.takes, hpost] at htakes
  simpa using htakes

theorem handle_eq (g : Gateway) (now : Clock) (fault : Option WriteFault) (r : HttpRequest)
    (e : Entropy) {route : Route} (hroute : Route.find r.method r.path = .ok route) :
    g.handle now fault r e =
      ((hideBody r (g.handleRoute now fault r e route).1.1,
        (g.handleRoute now fault r e route).1.2), (g.handleRoute now fault r e route).2) := by
  simp only [handle, hroute]

/-- A caller is refused the process of another node. -/
theorem schedule_of_ne (g : Gateway) (caller : AuthenticatedNode) (c : ScheduleCall)
    (hne : caller.node ≠ c.node) :
    ∃ cause, g.schedule caller c = (.replied (.refusal cause), g) := by
  obtain ⟨cause, hcause⟩ : ∃ cause, Scheduler.authorize caller.node c.node = .error cause :=
    ⟨_, if_neg hne⟩
  refine ⟨cause, ?_⟩
  simp only [schedule, Scheduler.schedule, hcause, bind, Except.bind]

theorem locate_of_ne (g : Gateway) (now : Clock) (caller : AuthenticatedNode) (c : LocateCall)
    (hne : caller.node ≠ c.node) :
    ∃ cause, g.locate now caller c = (.replied (.refusal cause), g) := by
  obtain ⟨cause, hcause⟩ : ∃ cause, Scheduler.authorize caller.node c.node = .error cause :=
    ⟨_, if_neg hne⟩
  refine ⟨cause, ?_⟩
  simp only [locate, Scheduler.locate, hcause, bind, Except.bind]

section
variable (g : Gateway) (now : Clock) (fault : Option WriteFault) (r : HttpRequest) (e : Entropy)

/-- A request on one of the four routes that entitles to no node is refused, and changes nothing. -/
theorem handle_refused {route : Route} (hroute : Route.find r.method r.path = .ok route)
    {role : Role} (hrole : route.role? = some role)
    (hnobody : ∀ node, ¬g.Entitles now.wall r route node) :
    Refuses (g.handle now fault r e).1.1 ∧ (g.handle now fault r e).1.2 = g ∧
      (g.handle now fault r e).2 = e := by
  rw [handle_eq g now fault r e hroute]
  suffices h : Refuses (g.handleRoute now fault r e route).1.1 ∧
      (g.handleRoute now fault r e route).1.2 = g ∧ (g.handleRoute now fault r e route).2 = e from
    ⟨refuses_hideBody r h.1, h.2⟩
  have hnot : ∀ caller, g.callerOf now.wall role r = .ok caller → ¬Names r caller.node route := by
    intro caller hcaller hnames
    exact hnobody caller.node
      ((entitles_iff g now.wall r route role hrole _).2 ⟨caller, hcaller, rfl, hnames⟩)
  -- without a caller every route refuses in the same way
  have hwithCaller : ∀ call : AuthenticatedNode → (Handled × Gateway) × Entropy,
      (∀ caller, g.callerOf now.wall role r = .ok caller →
        Refuses (call caller).1.1 ∧ (call caller).1.2 = g ∧ (call caller).2 = e) →
      Refuses (g.withCaller now.wall role r e call).1.1 ∧
        (g.withCaller now.wall role r e call).1.2 = g ∧
        (g.withCaller now.wall role r e call).2 = e := by
    intro call hcall
    unfold withCaller
    split
    · next caller hcaller => exact hcall caller hcaller
    · next cause _ => exact ⟨⟨_, rfl, cause.status_ge⟩, rfl, rfl⟩
  have hwithBody : ∀ {α : Type} (d : Json.Decoder α) (call : α → (Handled × Gateway) × Entropy),
      (∀ c, r.decodeBody d = .ok c →
        Refuses (call c).1.1 ∧ (call c).1.2 = g ∧ (call c).2 = e) →
      Refuses (g.withBody r d e call).1.1 ∧ (g.withBody r d e call).1.2 = g ∧
        (g.withBody r d e call).2 = e := by
    intro α d call hcall
    unfold withBody
    split
    · next c hc => exact hcall c hc
    · next status hstatus => exact ⟨⟨_, rfl, r.le_of_decodeBody d status hstatus⟩, rfl, rfl⟩
  cases route with
  | schedule =>
    cases hrole
    refine hwithCaller _ fun caller hcaller => hwithBody _ _ fun c hc => ?_
    have hne : caller.node ≠ c.node := fun heq => hnot caller hcaller ⟨c, hc, heq.symm⟩
    obtain ⟨cause, hcause⟩ := g.schedule_of_ne caller c hne
    rw [hcause]
    exact ⟨⟨_, rfl, cause.status_ge⟩, rfl, rfl⟩
  | locate =>
    cases hrole
    refine hwithCaller _ fun caller hcaller => hwithBody _ _ fun c hc => ?_
    have hne : caller.node ≠ c.node := fun heq => hnot caller hcaller ⟨c, hc, heq.symm⟩
    obtain ⟨cause, hcause⟩ := g.locate_of_ne now caller c hne
    rw [hcause]
    exact ⟨⟨_, rfl, cause.status_ge⟩, rfl, rfl⟩
  | nodeSocket =>
    cases hrole
    exact hwithCaller _ fun caller hcaller => absurd trivial (hnot caller hcaller)
  | signerSocket =>
    cases hrole
    exact hwithCaller _ fun caller hcaller => absurd trivial (hnot caller hcaller)
  | _ => cases hrole

/-! ## What entitled callers get -/

variable {g now r} {node : NodeId}

/-- Who may have the process of a node run is told where it runs, or waits for its launch. -/
theorem handle_schedule (hroute : Route.find r.method r.path = .ok .schedule)
    (hentitles : g.Entitles now.wall r .schedule node) :
    g.handle now fault r e =
      match g.scheduler.registry.get? node with
      | some a => ((.replied (locationReply a), g), e)
      | none =>
        ((.scheduling g.scheduler.nextCall,
          { g with scheduler := (g.scheduler.enter node).2 }), e) := by
  obtain ⟨caller, hcaller, rfl, c, hc, hnames⟩ := (entitles_iff _ _ _ _ _ rfl _).1 hentitles
  have hcall : g.schedule caller c = match g.scheduler.registry.get? caller.node with
      | some a => (.replied (locationReply a), g)
      | none =>
        (.scheduling g.scheduler.nextCall,
          { g with scheduler := (g.scheduler.enter caller.node).2 }) := by
    rw [schedule, Scheduler.schedule_eq, hnames, Scheduler.authorize, if_pos rfl]
    cases hregistry : g.scheduler.registry.get? caller.node with
    | some a => rfl
    | none =>
      have hjoined := g.scheduler.enter_vacant hregistry
      simp only [Except.bind]
      split
      · next heq => cases heq
      · next a scheduler heq =>
        rw [Except.ok.injEq] at heq
        rw [heq] at hjoined
        cases hjoined
      · next call scheduler heq =>
        rw [Except.ok.injEq] at heq
        rw [heq] at hjoined ⊢
        cases hjoined
        rfl
  rw [handle_eq g now fault r e hroute, hideBody_post r _ (method_of_post hroute rfl)]
  simp only [handleRoute, withCaller, hcaller, withBody, hc, hcall]
  cases g.scheduler.registry.get? caller.node <;> rfl

/-- Who may ask where the process of a node runs is told, or waits for the process. -/
theorem handle_locate (hroute : Route.find r.method r.path = .ok .locate)
    (hentitles : g.Entitles now.wall r .locate node) :
    g.handle now fault r e =
        ((.replied (locateReply node (g.scheduler.registry.get? node)), g), e) ∨
      g.handle now fault r e =
        ((.locating node g.scheduler.nextCall, { g with
          scheduler := { g.scheduler with
            lookups := g.scheduler.lookups.set g.scheduler.nextCall
              ⟨node, now.steady + g.scheduler.settings.maxWait⟩
            nextCall := g.scheduler.nextCall + 1 } }), e) := by
  obtain ⟨caller, hcaller, rfl, c, hc, hnames⟩ := (entitles_iff _ _ _ _ _ rfl _).1 hentitles
  rw [handle_eq g now fault r e hroute, hideBody_post r _ (method_of_post hroute rfl)]
  have hauthorized : Scheduler.authorize caller.node caller.node = .ok () := if_pos rfl
  simp only [handleRoute, withCaller, hcaller, withBody, hc, locate, Scheduler.locate, hnames,
    hauthorized]
  cases c.wait with
  | false => exact Or.inl rfl
  | true => exact Or.inr rfl

/-- Who may open a stream for a node gets one, if the connection can become a WebSocket. -/
theorem handle_nodeSocket (hroute : Route.find r.method r.path = .ok .nodeSocket)
    (hentitles : g.Entitles now.wall r .nodeSocket node) :
    g.handle now fault r e =
      match r.checkUpgrade with
      | .error status => ((.replied (.bare status), g), e)
      | .ok () =>
        ((.nodeSocket ⟨g.relay.nextStream, []⟩,
          { g with relay := (g.relay.openStream node).2 }), e) := by
  obtain ⟨caller, hcaller, rfl, -⟩ := (entitles_iff _ _ _ _ _ rfl _).1 hentitles
  rw [handle_eq g now fault r e hroute]
  simp only [handleRoute, withCaller, hcaller, connectNode]
  cases r.checkUpgrade with
  | error status => rw [hideBody_bare]
  | ok _ => rfl

/-- Who may attach a signer for a node gets a session, if the connection can become a WebSocket. -/
theorem handle_signerSocket (hroute : Route.find r.method r.path = .ok .signerSocket)
    (hentitles : g.Entitles now.wall r .signerSocket node) :
    g.handle now fault r e =
      match r.checkUpgrade with
      | .error status => ((.replied (.bare status), g), e)
      | .ok () =>
        ((.signerSocket ⟨g.relay.nextSession⟩,
          { g with relay := (g.relay.attach node).2 }), e) := by
  obtain ⟨caller, hcaller, rfl, -⟩ := (entitles_iff _ _ _ _ _ rfl _).1 hentitles
  rw [handle_eq g now fault r e hroute]
  simp only [handleRoute, withCaller, hcaller, connectSigner]
  cases r.checkUpgrade with
  | error status => rw [hideBody_bare]
  | ok _ => rfl

end

end Gateway

end SigningGateway
