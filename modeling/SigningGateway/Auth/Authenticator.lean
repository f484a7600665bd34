import SigningGateway.Auth.Challenge
import SigningGateway.Auth.Store
import SigningGateway.Auth.Verifier

/-!
# The authenticator

A node asks for a challenge and signs it, to register or to recover its credentials.  There is at
most one live challenge for a node and a scope, and a newer one takes its place.  Only a call that
succeeds uses a challenge up; used values are remembered for a while, so that a replay is told.

A call has two halves: `prepareRegister` or `prepareRecover` checks it and mints the certificate,
`complete` writes the store and uses the challenge up.  In between the call waits for the disk, and
holds the lock of its node.
-/

namespace SigningGateway

structure AuthSettings where
  /-- How long a challenge stays valid. -/
  challengeTtl : Nat := 300000
  /-- How long used challenges are remembered. -/
  replayRetention : Nat := 86400000

structure UsedChallenge where
  node : NodeId
  usedAt : Nat

structure AuthStats where
  liveChallenges : Nat
  usedChallenges : Nat
  identityLocks : Nat
  deriving DecidableEq, Repr

structure Authenticator where
  settings : AuthSettings
  store : Store
  verifier : Verifier
  live : Table (NodeId × Scope) Challenge
  used : Table Bytes UsedChallenge
  /-- The locks of nodes, and whether a call holds them. -/
  locks : Table NodeId Bool

/-- A call between its two halves. -/
structure Admission where
  node : NodeId
  scope : Scope
  /-- What a registering node tells about itself. -/
  metadata : Option Metadata
  certificate : Certificate
  bundle : Bundle

namespace Authenticator

def start (settings : AuthSettings) (store : Store) (verifier : Verifier) : Authenticator :=
  ⟨settings, store, verifier, .empty, .empty, .empty⟩

/-- Notes whether a call holds the lock of a node. -/
def lock (a : Authenticator) (node : NodeId) (held : Bool) : Authenticator :=
  { a with locks := a.locks.set node held }

/-! ## Challenges -/

/-- Hands out a fresh challenge, in place of an earlier one for the same scope. -/
def getChallenge (a : Authenticator) (now : Nat) (node : NodeId) (scope : Scope) (e : Entropy) :
    (Bytes × Authenticator) × Entropy :=
  let (value, e) := e.draw challengeSize
  let live := a.live.set (node, scope) ⟨value, now + a.settings.challengeTtl⟩
  ((value, { a with live }.lock node false), e)

/-- Checks a presented challenge without using it up.  A live one that has expired is dropped. -/
def checkChallenge (a : Authenticator) (now : Nat) (node : NodeId) (scope : Scope)
    (presented : Bytes) : Except Error Unit × Authenticator :=
  if presented.length = challengeSize && a.used.contains presented then (.error .replay, a)
  else
    match a.live.get? (node, scope) with
    | none =>
      (.error (.authentication ("no outstanding " ++ scope.word ++ " challenge")), a)
    | some c =>
      if presented.length ≠ challengeSize || presented ≠ c.value then
        (.error (.authentication
          ("challenge does not match the outstanding " ++ scope.word ++ " challenge")), a)
      else if c.isExpired now then
        (.error (.authentication "challenge expired"),
          { a with live := a.live.erase (node, scope) })
      else (.ok (), a)

/-- Uses the live challenge of a node up, if there is one. -/
def useChallenge (a : Authenticator) (now : Nat) (node : NodeId) (scope : Scope) :
    Authenticator :=
  match a.live.get? (node, scope) with
  | none => a
  | some c =>
    { a with live := a.live.erase (node, scope), used := a.used.set c.value ⟨node, now⟩ }

/-! ## Registration and recovery -/

def mint (a : Authenticator) (clock : Clock) (node : NodeId) (scope : Scope)
    (metadata : Option Metadata) (name : String) (e : Entropy) : Admission × Entropy :=
  let ((certificate, bundle), e) := a.store.issuer.issue node .device name clock.wall e
  (⟨node, scope, metadata, certificate, bundle⟩, e)

/-- Checks the challenge and the signature of a call, and mints its certificate. -/
def prepare (a : Authenticator) (clock : Clock) (node : NodeId) (scope : Scope)
    (metadata : Option Metadata) (challenge message signature : Bytes) (name : String)
    (e : Entropy) : (Except Error Admission × Authenticator) × Entropy :=
  match a.checkChallenge clock.steady node scope challenge with
  | (.error cause, a) => ((.error cause, a.lock node false), e)
  | (.ok (), a) =>
    match a.verifier node message signature with
    | .error cause => ((.error cause, a.lock node false), e)
    | .ok () =>
      let (admission, e) := a.mint clock node scope metadata name e
      ((.ok admission, a.lock node true), e)

def prepareRegister (a : Authenticator) (clock : Clock) (node : NodeId) (metadata : Metadata)
    (challenge signature : Bytes) (e : Entropy) :
    (Except Error Admission × Authenticator) × Entropy :=
  a.prepare clock node .register (some metadata) challenge
    (Message.registration challenge metadata) signature "device" e

def recoveredName (challenge : Bytes) : String := "recovered-" ++ Hex.encode (challenge.take 8)

def prepareRecover (a : Authenticator) (clock : Clock) (node : NodeId)
    (challenge signature : Bytes) (e : Entropy) :
    (Except Error Admission × Authenticator) × Entropy :=
  if a.store.isRegistered node then
    a.prepare clock node .recover none challenge (Message.recovery challenge node) signature
      (recoveredName challenge) e
  else ((.error (.unknownIdentity node), a.lock node false), e)

/-- Writes an admitted call to the store. -/
def record (a : Authenticator) (fault : Option WriteFault) (now : Moment)
    (admission : Admission) : Except Error Store :=
  match admission.metadata with
  | some metadata =>
    a.store.recordRegistration fault now admission.node metadata admission.certificate
  | none => a.store.recordRecovery fault admission.node admission.certificate

/-- The second half of a call: writes the store and uses the challenge up. -/
def complete (a : Authenticator) (clock : Clock) (fault : Option WriteFault)
    (admission : Admission) : Except Error Bundle × Authenticator :=
  let a := a.lock admission.node false
  match a.record fault clock.wall admission with
  | .error cause => (.error cause, a)
  | .ok store =>
    (.ok admission.bundle,
      { a with store }.useChallenge clock.steady admission.node admission.scope)

/-- Both halves of a call at one moment. -/
def finish (clock : Clock) (fault : Option WriteFault)
    (prepared : (Except Error Admission × Authenticator) × Entropy) :
    (Except Error Bundle × Authenticator) × Entropy :=
  match prepared with
  | ((.error cause, a), e) => ((.error cause, a), e)
  | ((.ok admission, a), e) => (a.complete clock fault admission, e)

/-- Registers a node and returns its first device credential. -/
def register (a : Authenticator) (clock : Clock) (fault : Option WriteFault) (node : NodeId)
    (metadata : Metadata) (challenge signature : Bytes) (e : Entropy) :
    (Except Error Bundle × Authenticator) × Entropy :=
  finish clock fault (a.prepareRegister clock node metadata challenge signature e)

/-- Issues a further device credential to a registered node. -/
def recover (a : Authenticator) (clock : Clock) (fault : Option WriteFault) (node : NodeId)
    (challenge signature : Bytes) (e : Entropy) :
    (Except Error Bundle × Authenticator) × Entropy :=
  finish clock fault (a.prepareRecover clock node challenge signature e)

/-- Issues a credential for the process of a registered node. -/
def issueNodeCredential (a : Authenticator) (clock : Clock) (fault : Option WriteFault)
    (node : NodeId) (e : Entropy) : (Except Error Bundle × Authenticator) × Entropy :=
  match a.store.issueNodeCredential fault clock.wall node e with
  | (.ok (bundle, store), e) => ((.ok bundle, { a with store }), e)
  | (.error cause, e) => ((.error cause, a), e)

/-! ## Housekeeping -/

/-- Drops expired challenges, used ones whose retention is over, and locks that nobody holds. -/
def cleanup (a : Authenticator) (now : Nat) : Authenticator :=
  { a with
    live := a.live.filter fun _ c => !c.isExpired now
    used := a.used.filter fun _ u => now - u.usedAt < a.settings.replayRetention
    locks := a.locks.filter fun _ held => held }

def stats (a : Authenticator) : AuthStats := ⟨a.live.size, a.used.size, a.locks.size⟩

end Authenticator

end SigningGateway
