import EvoCore.HappeningBus

namespace EvoCore.Subscriptions
open Runs HappeningBus
open Coalescer (HappeningEnvelope)

-- run_subscription of crates/evo/src/server.rs without a coalescer and without keepalives. A frame
-- that cannot be written ends the function and nothing the bus does depends on it, so a client that
-- leaves is one that reads an initial part of the frames.
inductive ErrorClass where
  | contractViolation
  | internal
deriving DecidableEq,Repr

structure ApiError where
  errorClass : ErrorClass
  message : String
  subclass : String
  details : List (String × Nat)
deriving DecidableEq,Repr

inductive ClientResponse (η : Type) where
  | error (error : ApiError)
  | subscribed (currentSeq : Nat)
  | happening (seq : Nat) (happening : η)
deriving DecidableEq,Repr

def ClientResponse.envelope? : ClientResponse η → Option (HappeningEnvelope η)
  | .happening seq emitted => some ⟨seq,emitted⟩
  | _ => none

def written (frames : List (ClientResponse η)) : List (HappeningEnvelope η) := frames.filterMap (·.envelope?)

@[simp] theorem written_append {first second : List (ClientResponse η)} : written (first ++ second) = written first ++ written second := by
  simp [written]

@[simp] theorem written_error : written (η := η) [.error e] = [] := rfl
@[simp] theorem written_subscribed : written (η := η) [.subscribed n] = [] := rfl
@[simp] theorem written_happening : written (η := η) [.happening seq h] = [⟨seq,h⟩] := rfl
@[simp] theorem written_nil : written (η := η) [] = [] := rfl

inductive Phase (η : Type) where
  | subscribed
  | acked
  | replaying (rows : List (PersistedHappening η)) (last : Nat)
  | live (boundary : Nat)
  | closed
deriving DecidableEq,Repr

-- The receiver starts at the end of what was sent when it subscribed.
structure Subscription (η : Type) where
  since : Option Nat
  accepts : η → Bool
  start : Nat
  currentSeq : Nat
  position : Nat
  phase : Phase η
  frames : List (ClientResponse η)

-- The awaits of one run. A failed one has the text of the error that the store or the decoder gives.
inductive Call where
  | loadOldest (failed : Option String)
  | loadSince (failed : Option String)
  | replayRow (failed : Option String)
  | recv
deriving DecidableEq,Repr

section
variable {η : Type}

def subscribeWithCurrentSeq (bus : Bus η) (since : Option Nat) (accepts : η → Bool) : Subscription η :=
  ⟨since,accepts,bus.sent.length,bus.nextSeq-1,bus.sent.length,.subscribed,[]⟩

def Subscription.close (sub : Subscription η) (error : ApiError) : Subscription η :=
  {sub with phase := .closed,frames := sub.frames ++ [ClientResponse.error error]}

def Subscription.ack (sub : Subscription η) : Subscription η :=
  {sub with phase := .acked,frames := sub.frames ++ [ClientResponse.subscribed sub.currentSeq]}

def replayWindowExceeded (cursor oldest currentSeq : Nat) : ApiError where
  errorClass := .contractViolation
  message := s!"since={cursor} is older than the durable retention window (oldest available seq is {oldest})"
  subclass := "replay_window_exceeded"
  details := [("oldest_available_seq",oldest),("current_seq",currentSeq)]

def checkWindow (bus : Bus η) (sub : Subscription η) (failed : Option String) : Subscription η :=
  match sub.since with
  | none => sub.ack
  | some cursor =>
    match failed with
    | some e => sub.close ⟨.internal,"oldest-seq query failed: " ++ e,"replay_window_query_failed",[]⟩
    | none =>
      let oldest := loadOldestHappeningSeq bus.log
      if 0 < oldest ∧ cursor < oldest then sub.close (replayWindowExceeded cursor oldest sub.currentSeq) else sub.ack

def replayQuery (bus : Bus η) (sub : Subscription η) (failed : Option String) : Subscription η :=
  match sub.since with
  | none => {sub with phase := .live 0}
  | some cursor =>
    match failed with
    | some e => sub.close ⟨.internal,"replay query failed: " ++ e,"replay_query_failed",[]⟩
    | none => {sub with phase := .replaying (loadHappeningsSince bus.log cursor u32Max) cursor}

-- A rejected row advances `last` too.
def replayRow (sub : Subscription η) (rows : List (PersistedHappening η)) (last : Nat) (failed : Option String) :
    Subscription η :=
  match rows with
  | [] => {sub with phase := .live last}
  | row::rest =>
    match failed with
    | some e => sub.close ⟨.internal,s!"replay decode failed at seq {row.seq}: {e}","replay_decode_failed",[]⟩
    | none => {sub with
        phase := .replaying rest row.seq
        frames := sub.frames ++ if sub.accepts row.payload then [.happening row.seq row.payload] else []}

def recv (bus : Bus η) (sub : Subscription η) (boundary : Nat) : Subscription η :=
  match bus.sent[sub.position]? with
  | none => sub
  | some env => {sub with
      position := sub.position+1
      frames := sub.frames ++
        if env.seq ≤ boundary then []
        else if sub.accepts env.happening then [.happening env.seq env.happening] else []}

def advance (bus : Bus η) (sub : Subscription η) (call : Call) : Subscription η :=
  match call,sub.phase with
  | .loadOldest failed,.subscribed => checkWindow bus sub failed
  | .loadSince failed,.acked => replayQuery bus sub failed
  | .replayRow failed,.replaying rows last => replayRow sub rows last failed
  | .recv,.live boundary => recv bus sub boundary
  | _,_ => sub

end

structure System (η : Type) where
  bus : Bus η
  subscriptions : List (Subscription η)

inductive Event (η : Type) where
  | emits (event : Emit η)
  | subscribe (since : Option Nat) (accepts : η → Bool)
  | call (subscriber : Nat) (call : Call)

-- subscribe_with_current_seq waits at emit_lock.
def System.step (kindStr : η → String) (s : System η) : Event η → System η
  | .emits event => {s with bus := s.bus.step kindStr event}
  | .subscribe since accepts =>
    match s.bus.emitLock with
    | some _ => s
    | none => {s with subscriptions := s.subscriptions ++ [subscribeWithCurrentSeq s.bus since accepts]}
  | .call subscriber call =>
    match s.subscriptions[subscriber]? with
    | none => s
    | some sub => {s with subscriptions := s.subscriptions.set subscriber (advance s.bus sub call)}

def System.booted (log : List (PersistedHappening η)) : System η := ⟨.withPersistence log [],[]⟩

def Subscription.asks (sub : Subscription η) : Call → Option Nat
  | .loadSince none =>
    match sub.phase with
    | .acked => sub.since
    | _ => none
  | _ => none

inductive Turn (bus : Bus η) (sub : Subscription η) : Option Nat → Subscription η → Prop where
  | idle : Turn bus sub none sub
  | close (error : ApiError) (before : ∀ boundary,sub.phase ≠ .live boundary) : Turn bus sub none (sub.close error)
  | ack (before : sub.phase = .subscribed) : Turn bus sub none sub.ack
  | unreplayed (before : sub.phase = .acked) (live : sub.since = none) : Turn bus sub none {sub with phase := .live 0}
  | query (before : sub.phase = .acked) (since : sub.since = some cursor) : Turn bus sub (some cursor)
      {sub with phase := .replaying (loadHappeningsSince bus.log cursor u32Max) cursor}
  | row (before : sub.phase = .replaying (row::rest) last) : Turn bus sub none {sub with
      phase := .replaying rest row.seq
      frames := sub.frames ++ if sub.accepts row.payload then [.happening row.seq row.payload] else []}
  | replayed (before : sub.phase = .replaying [] last) : Turn bus sub none {sub with phase := .live last}
  | recv (before : sub.phase = .live boundary) (there : bus.sent[sub.position]? = some env) : Turn bus sub none {sub with
      position := sub.position+1
      frames := sub.frames ++
        if env.seq ≤ boundary then []
        else if sub.accepts env.happening then [.happening env.seq env.happening] else []}

variable {η : Type} {kindStr : η → String} {bus : Bus η} {sub : Subscription η}

theorem checkWindow_turn (before : sub.phase = .subscribed) : Turn bus sub none (checkWindow bus sub failed) := by
  unfold checkWindow
  split
  · exact .ack before
  · split
    · exact .close _ (by simp [before])
    · dsimp only
      split
      · exact .close _ (by simp [before])
      · exact .ack before

theorem replayQuery_turn (before : sub.phase = .acked) :
    Turn bus sub (sub.asks (.loadSince failed)) (replayQuery bus sub failed) := by
  unfold replayQuery
  split
  · rename_i since
    have unasked : sub.asks (.loadSince failed) = none := by
      cases failed with
      | none => simp [Subscription.asks,before,since]
      | some e => rfl
    rw [unasked]
    exact .unreplayed before since
  · rename_i cursor since
    cases failed with
    | some e => exact .close _ (by simp [before])
    | none =>
      have asked : sub.asks (.loadSince none) = some cursor := by simp [Subscription.asks,before,since]
      rw [asked]
      exact .query before since

theorem advance_turn : Turn bus sub (sub.asks call) (advance bus sub call) := by
  cases call with
  | loadOldest failed =>
    simp only [advance,Subscription.asks]
    cases before : sub.phase with
    | subscribed => exact checkWindow_turn before
    | _ => exact .idle
  | loadSince failed =>
    simp only [advance]
    cases before : sub.phase with
    | acked => exact replayQuery_turn before
    | _ => cases failed <;> simp only [Subscription.asks,before] <;> exact .idle
  | replayRow failed =>
    simp only [advance,Subscription.asks]
    cases before : sub.phase with
    | replaying rows last =>
      cases rows with
      | nil => exact .replayed before
      | cons row rest =>
        cases failed with
        | some e => exact .close _ (by simp [before])
        | none => exact .row before
    | _ => exact .idle
  | recv =>
    simp only [advance,Subscription.asks]
    cases before : sub.phase with
    | live boundary =>
      simp only [recv]
      cases there : bus.sent[sub.position]? with
      | none => exact .idle
      | some env => exact .recv before there
    | _ => exact .idle

end EvoCore.Subscriptions
