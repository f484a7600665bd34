import Mathlib.Algebra.Group.Nat.Defs
import SigningGateway.Proofs.Auth.Checking
import SigningGateway.Proofs.Auth.Run
import SigningGateway.Proofs.Launch.Arithmetic
import SigningGateway.Proofs.Relay.Invariant
import SigningGateway.Settings.Basic

/-!
# What settings may lead to

The validation of settings looks for an empty range of ports and for times of zero.  What it lets
through goes into sums: of a port and one, and of an instant and a time to live or a time to answer.
An instant counts its seconds in 64 bits with a sign, so a sum may lie behind the last one.

    validate = .ok () → in every run: which of the sums are in range           (in_range_of_valid)
-/

namespace SigningGateway

/-- Whether so many milliseconds are an instant: the seconds are counted in 64 bits with a sign. -/
def IsInstant (millis : Nat) : Prop := millis / 1000 < 2 ^ 63

instance (millis : Nat) : Decidable (IsInstant millis) := inferInstanceAs (Decidable (_ < _))

/-- Some seconds after an instant. -/
theorem isInstant_add_seconds (now seconds : Nat) :
    IsInstant (now + 1000 * seconds) ↔ now / 1000 + seconds < 2 ^ 63 := by
  rw [IsInstant, Nat.add_mul_div_left _ _ (by decide)]

/-- A number of 64 bits of milliseconds after an instant, unless the clock shows one of the last. -/
theorem isInstant_add_millis (now : Nat) (millis : UInt64) (hnow : now / 1000 + 2 ^ 55 < 2 ^ 63) :
    IsInstant (now + millis.toNat) := by
  have hmillis := millis.toNat_lt
  rw [IsInstant]
  omega

/-! ## Settings in runs -/

namespace Authenticator

theorem settings_prepare (a : Authenticator) (clock : Clock) (node : NodeId) (scope : Scope)
    (metadata : Option Metadata) (challenge message signature : Bytes) (name : String)
    (e : Entropy) :
    (a.prepare clock node scope metadata challenge message signature name e).1.2.settings =
      a.settings := by
  rcases a.prepare_cases clock node scope metadata challenge message signature name e with
    ⟨-, heq⟩ | ⟨-, cause, a', heq, hsheds⟩
  · rw [heq]
    rfl
  · rw [heq]
    exact hsheds.settings

theorem settings_complete (a : Authenticator) (clock : Clock) (fault : Option WriteFault)
    (admission : Admission) : (a.complete clock fault admission).2.settings = a.settings := by
  unfold complete
  dsimp only
  split
  · rfl
  · exact (useChallenge_frame _ _ _ _).1

end Authenticator

namespace AuthRun

theorem settings_prepare (s : AuthRun) (node : NodeId) (call : Call) (challenge signature : Bytes) :
    (s.prepare node call challenge signature).1.2.settings = s.auth.settings := by
  cases call with
  | register metadata => exact Authenticator.settings_prepare ..
  | recover =>
    rw [prepare, Authenticator.prepareRecover]
    split
    · exact Authenticator.settings_prepare ..
    · rfl

/-- No operation changes the settings of an authenticator. -/
theorem settings_step (s : AuthRun) (op : AuthOp) :
    (s.step op).2.auth.settings = s.auth.settings := by
  cases op with
  | getChallenge node scope =>
    rw [step]
    split <;> rfl
  | call node call challenge signature =>
    have hprepare := s.settings_prepare node call challenge signature
    rw [step]
    split
    · rfl
    · rw [enter]
      split <;> next heq => rwa [heq] at hprepare
  | finish node fault =>
    rw [step]
    split
    · next o ho =>
      have hcomplete := s.auth.settings_complete s.clock fault o.admission
      rw [finish]
      split
      · next heq => rwa [heq] at hcomplete
      · next heq => rwa [heq] at hcomplete
    · rfl
  | cleanup => rfl
  | advance duration => rfl

theorem settings_run (s : AuthRun) (ops : List AuthOp) :
    (s.run ops).auth.settings = s.auth.settings := by
  induction ops generalizing s with
  | nil => rfl
  | cons op ops ih => rw [run_cons, ih, settings_step]

/-- A challenge that is handed out is over a time to live later. -/
theorem live_of_issued (s : AuthRun) (node : NodeId) (scope : Scope) (value : Bytes)
    (h : (s.step (.getChallenge node scope)).1 = .issued value) :
    (s.step (.getChallenge node scope)).2.auth.live.get? (node, scope) =
      some ⟨value, s.clock.steady + s.auth.settings.challengeTtl⟩ := by
  rw [step] at h ⊢
  split at h
  · cases h
  · next hidle =>
    rw [if_neg hidle]
    obtain rfl := AuthAnswer.issued.inj h
    show (s.auth.live.set _ _).get? _ = _
    rw [Table.get?_set, if_pos rfl]

end AuthRun

namespace ClockedRelay

/-- No operation changes the settings of a relay. -/
theorem settings_step (s : ClockedRelay) (op : RelayOp) :
    (s.step op).2.relay.settings = s.relay.settings := by
  cases op with
  | openStream node => rfl
  | closeStream stream =>
    rcases s.relay.closeStream_cases stream with ⟨heq, -⟩ | ⟨_, -, -, heq⟩
    all_goals simp only [step, heq, Relay.resolve]
  | dropStream stream =>
    rcases s.relay.closeStream_cases stream with ⟨heq, -⟩ | ⟨_, -, -, heq⟩
    all_goals simp only [step, Relay.dropStream, heq, Relay.resolve]
  | submit stream dbid capabilities raw =>
    cases haccepts : s.accepts (.submit stream dbid capabilities raw) with
    | some q =>
      rw [(s.enters_of_accepts _ q haccepts).2]
      rfl
    | none => rw [s.step_submit_of_not_accepts stream dbid capabilities raw haccepts]
  | grant stream dbid capabilities =>
    simp only [step]
    split
    · next relay hgrant =>
      obtain ⟨grants, rfl⟩ := Relay.grant_eq_ok relay stream dbid capabilities hgrant
      rfl
    · rfl
  | attach node => rfl
  | take session count =>
    simp only [step, Relay.take]
    split <;> rfl
  | respond session response =>
    simp only [step]
    split
    · next relay hok =>
      obtain ⟨-, rfl⟩ := (Relay.respond_eq_ok_iff _ _ _ _).1 hok
      rfl
    · rfl
  | detach session =>
    simp only [step, Relay.detach]
    split
    · rfl
    · split
      · rfl
      · split <;> rfl
  | poll ticket =>
    simp only [step, Relay.poll]
    split
    · rfl
    · split
      · rfl
      · rfl
      · split <;> rfl
  | abandon ticket =>
    simp only [step, Relay.abandon]
    split <;> rfl
  | sweep => rfl
  | advance duration => rfl

theorem settings_run (s : ClockedRelay) (ops : List RelayOp) :
    (s.run ops).relay.settings = s.relay.settings := by
  induction ops generalizing s with
  | nil => rfl
  | cons op ops ih => rw [run_cons, ih, settings_step]

/-- A request that is accepted waits for the time to answer. -/
theorem deadline_of_accepts (s : ClockedRelay) (op : RelayOp) (q : Accepted)
    (h : s.accepts op = some q) :
    ∃ e, (s.step op).2.relay.pending.entries.get? q.id = some e ∧
      e.deadline = s.now + s.relay.settings.requestTimeout := by
  obtain ⟨opened, -, -, -, -, hdispatch⟩ := s.accepts_eq_some op q h
  have hid : q.id = s.relay.pending.freeId := congrArg (fun r => r.1.2) hdispatch
  have hrelay := congrArg Prod.snd hdispatch
  dsimp only at hrelay
  rw [hrelay, Relay.get?_pending_dispatch, if_pos hid]
  exact ⟨_, rfl, rfl⟩

end ClockedRelay

namespace Settings

/-- Valid settings have a range of ports that is not empty. -/
theorem range_of_valid {s : Settings} (hvalid : s.validate = .ok ()) :
    s.launcher.portMin ≤ s.launcher.portMax := by
  have hfaults := s.validate_eq_ok_iff.1 hvalid
  rw [faults, List.append_eq_nil_iff, List.append_eq_nil_iff] at hfaults
  have hrange := hfaults.1.2
  split at hrange
  · cases hrange
  · next hle => exact UInt16.not_lt.1 hle

/-- The arithmetic that valid settings lead to, in every run of the parts of the gateway:

The width of the range of ports fits, and so does the port behind its low end, unless the range is
the last port of all and a launch has begun before.

The end of a challenge is an instant just if the seconds on the clock and those of its time to live
add up to less than 2 ^ 63; with a time to live of 2 ^ 63 seconds or more it never is.

The deadline of a request is an instant, unless the clock shows one of the last 2 ^ 55 seconds. -/
theorem in_range_of_valid (s : Settings) (hvalid : s.validate = .ok ()) :
    (∀ (ops : List LaunchOp) (node : NodeId),
      let p := ((LauncherRun.start s.launcher s.nodePortMin).run ops).launcher.ports
      p.spanChecked = some (s.nodePortMax.toNat - s.nodePortMin.toNat + 1) ∧
        p.leaseChecked node =
          if s.nodePortMin = 65535 ∧ ops.any LaunchOp.isClaim = true then none
          else some (p.lease node)) ∧
    (∀ (store : Store) (verifier : Verifier) (clock : Clock) (blocks : Nat → Block)
        (ops : List AuthOp) (node : NodeId) (scope : Scope) (value : Bytes),
      let r := (AuthRun.start s.auth store verifier clock blocks).run ops
      let ends := r.clock.steady + 1000 * s.challengeTtlSecs.toNat
      (r.step (.getChallenge node scope)).1 = .issued value →
        (r.step (.getChallenge node scope)).2.auth.live.get? (node, scope) = some ⟨value, ends⟩ ∧
          (IsInstant ends ↔ r.clock.steady / 1000 + s.challengeTtlSecs.toNat < 2 ^ 63)) ∧
    ∀ (now : Nat) (ops : List RelayOp) (op : RelayOp) (q : Accepted),
      let r := (ClockedRelay.start s.relay now).run ops
      r.accepts op = some q →
        ∃ e, (r.step op).2.relay.pending.entries.get? q.id = some e ∧
          e.deadline = r.now + s.requestTimeoutMs.toNat ∧
          (r.now / 1000 + 2 ^ 55 < 2 ^ 63 → IsInstant e.deadline) := by
  refine ⟨LauncherRun.leaseChecked_run (range_of_valid hvalid), ?_, ?_⟩
  · intro store verifier clock blocks ops node scope value r ends hissued
    have hsettings : r.auth.settings = s.auth := AuthRun.settings_run _ ops
    have hlive := r.live_of_issued node scope value hissued
    rw [hsettings] at hlive
    exact ⟨hlive, isInstant_add_seconds _ _⟩
  · intro now ops op q r haccepts
    have hsettings : r.relay.settings = s.relay := ClockedRelay.settings_run _ ops
    obtain ⟨e, he, hdeadline⟩ := r.deadline_of_accepts op q haccepts
    rw [hsettings] at hdeadline
    refine ⟨e, he, hdeadline, fun hnow => ?_⟩
    rw [hdeadline]
    exact isInstant_add_millis r.now s.requestTimeoutMs hnow

/-- The first launch gets the last port of all; a challenge and a request end where they should. -/
theorem in_range_of_lastPort :
    let s : Settings := { devMode := true, nodePortMin := 65535, nodePortMax := 65535 }
    let node : NodeId := ⟨List.replicate 32 7, rfl⟩
    let value := List.replicate 32 0
    let r := (AuthRun.start s.auth (.inMemory ⟨[]⟩) (fun _ _ _ => .ok ()) ⟨⟨0, 0⟩, 0⟩
      fun i => ⟨List.replicate 32 (UInt8.ofNat i), rfl⟩).run [.advance 5]
    let submit := RelayOp.submit 1 0 4 [1, 2]
    let opened := (ClockedRelay.start s.relay 7).run [.openStream node]
    let q : Accepted := ⟨⟨1, ⟨node, 0, 4⟩, [1, 2]⟩, 1, 60007, 1⟩
    s.validate = .ok () ∧
      (((LauncherRun.start s.launcher s.nodePortMin).launcher.ports.leaseChecked node).map
        Prod.fst) = some (some 65535) ∧
      (r.step (.getChallenge node .recover)).1 = .issued value ∧
      (r.step (.getChallenge node .recover)).2.auth.live.get? (node, .recover) =
        some ⟨value, 300005⟩ ∧
      IsInstant 300005 ∧ opened.accepts submit = some q ∧
      ∃ e, (opened.step submit).2.relay.pending.entries.get? 1 = some e ∧ e.deadline = 60007 ∧
        IsInstant e.deadline := by
  intro s node value r submit opened q
  have hvalid : s.validate = .ok () := rfl
  have hissued : (r.step (.getChallenge node .recover)).1 = .issued value := rfl
  have haccepts : opened.accepts submit = some q := by decide +kernel
  obtain ⟨hleases, hchallenges, hrequests⟩ := in_range_of_valid s hvalid
  obtain ⟨hlive, hends⟩ :=
    hchallenges (.inMemory ⟨[]⟩) _ ⟨⟨0, 0⟩, 0⟩ _ [.advance 5] node .recover value hissued
  have hend : r.clock.steady + 1000 * s.challengeTtlSecs.toNat = 300005 := by decide +kernel
  rw [hend] at hlive hends
  obtain ⟨e, he, hdeadline, hinstant⟩ := hrequests 7 [.openStream node] submit q haccepts
  have hdue : opened.now + s.requestTimeoutMs.toNat = 60007 := by decide +kernel
  refine ⟨hvalid, ?_, hissued, hlive, hends.2 (by decide +kernel), haccepts, e, he,
    hdeadline.trans hdue, hinstant (by decide)⟩
  exact (congrArg (Option.map Prod.fst) (hleases [] node).2).trans (by decide +kernel)

/-- Settings that are valid, though the first challenge would end behind the last instant, and
others that are valid, though the second launch computes the port behind the last one. -/
theorem valid_out_of_range :
    let long : Settings := { devMode := true, challengeTtlSecs := 9223372036854775808 }
    let last : Settings := { devMode := true, nodePortMin := 65535, nodePortMax := 65535 }
    let node : NodeId := ⟨List.replicate 32 7, rfl⟩
    let r := AuthRun.start long.auth (.inMemory ⟨[]⟩) (fun _ _ _ => .ok ()) ⟨⟨0, 0⟩, 0⟩
      fun i => ⟨List.replicate 32 (UInt8.ofNat i), rfl⟩
    let launched := (LauncherRun.start last.launcher last.nodePortMin).run [.claim node]
    let pool := launched.launcher.ports
    long.validate = .ok () ∧
      (∃ c, (r.step (.getChallenge node .register)).2.auth.live.get? (node, .register) = some c ∧
        ¬IsInstant c.expiresAt) ∧
      last.validate = .ok () ∧ pool.inRange pool.next = false ∧
      checkedAdd last.nodePortMin 1 = none ∧ pool.leaseChecked node = none := by
  intro long last node r launched pool
  have hlive := r.live_of_issued node .register (List.replicate 32 0) rfl
  have hlate : ¬IsInstant (r.clock.steady + r.auth.settings.challengeTtl) := by decide +kernel
  exact ⟨rfl, ⟨_, hlive, hlate⟩, rfl, by decide +kernel, by decide, by decide +kernel⟩

end Settings

end SigningGateway
