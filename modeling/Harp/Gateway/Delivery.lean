import Harp.Gateway.ContainerReply
import Harp.Gateway.MtlsHttpTransport
import Harp.Lib.Machine

/-
  One delivery, event by event (`src/gateway/concierge/MtlsHttpTransport.ts`).

  `deliver` listens on two objects: for `timeout` and `error` on the request, and for `data` and
  `end` on the response. An `error` that nobody listens for is thrown by Node, and a promise that no
  listener resolves stays pending.

  `Phase.next` says what Node may emit next. A request that is destroyed, or whose connection is
  reset, emits `error` also when its response has begun, and the response then breaks off or ends.
  A connection that the server closes in mid-body only breaks the response off: `aborted`, and no
  `error` on the request. Node's documentation has an `error` on a response that breaks off, and
  none on its request; Node emits it only to a listener. Both orders are admitted here.
-/

namespace Harp.Delivery

open MtlsHttpTransport ContainerReply

/-! ## The events -/

inductive HttpEvent where
  | timeout
  | requestError (message : String)
  | response (statusCode : Option ℕ)
  | data (chunk : List UInt8)
  /-- `end`. -/
  | ended
  | aborted
  | responseError (message : String)
  | close
  deriving DecidableEq

/-- The two objects that emit. -/
inductive Emitter where
  | req
  | res
  deriving DecidableEq

inductive EventName where
  | timeout
  | error
  | response
  | data
  | ended
  | aborted
  | close
  deriving DecidableEq

def HttpEvent.source : HttpEvent → Emitter × EventName
  | timeout => (.req, .timeout)
  | requestError _ => (.req, .error)
  | response _ => (.req, .response)
  | data _ => (.res, .data)
  | ended => (.res, .ended)
  | aborted => (.res, .aborted)
  | responseError _ => (.res, .error)
  | close => (.req, .close)

/-! ## What `deliver` does -/

/-- What `deliver` listens for; the callback of the request listens for its response. -/
def listeners : List (Emitter × EventName) :=
  [(.req, .response), (.res, .data), (.res, .ended), (.req, .timeout), (.req, .error)]

structure State where
  /-- `status` and `chunks`. -/
  reading : Option (ℕ × List (List UInt8)) := none
  /-- The message of the error that `req.destroy` was called with. -/
  destroyed : Option String := none
  /-- What the promise is resolved with. -/
  resolved : Option Json := none
  /-- An `error` was emitted that nobody listens for. -/
  unhandled : Bool := false

section

variable (request : ContainerRequest) (utf8 : List UInt8 → String)

/-- `resolve`, which has no effect on a promise that is resolved. -/
def State.resolve (s : State) (outcome : HttpOutcome) : State :=
  { s with resolved := s.resolved.or (MtlsHttpTransport.response request outcome).toOption }

/-- The body of the listener. -/
def State.listen (s : State) : HttpEvent → State
  | .response statusCode => { s with reading := some (statusCode.getD 0, []) }
  | .data chunk => { s with reading := s.reading.map fun r => (r.1, r.2 ++ [chunk]) }
  | .ended =>
    match s.reading with
    | some (status, chunks) => s.resolve request (.reply status (utf8 chunks.flatten))
    | none => s
  | .timeout => { s with destroyed := some "deadline exceeded" }
  | .requestError message => s.resolve request (.failed message)
  | .aborted | .responseError _ | .close => s

def State.emit (s : State) (e : HttpEvent) : State :=
  if e.source ∈ listeners then s.listen request utf8 e
  else if e.source.2 = .error then { s with unhandled := true }
  else s

end

/-! ## What Node emits -/

inductive Phase where
  | waiting
  | responding
  /-- The request emitted an `error` before a response. -/
  | refused
  /-- The request emitted an `error` while the response was read. -/
  | failing
  | ended
  | aborted
  | closed
  deriving DecidableEq

/-- The phase after an `error` on the request. -/
def Phase.fails : Phase → Option Phase
  | waiting => some refused
  | responding => some failing
  | ended => some ended
  | refused | failing | aborted | closed => none

/-- The phase after an event, if Node may emit it now; `destroyed` as in the state. -/
def Phase.next : Phase → Option String → HttpEvent → Option Phase
  -- a request that was destroyed emits the error that `req.destroy` was called with
  | p, destroyed, .requestError message =>
    if destroyed.all (· = message) then p.fails else none
  | waiting, none, .timeout => some waiting
  | waiting, none, .response _ => some responding
  | responding, none, .timeout => some responding
  | responding, none, .data _ => some responding
  | responding, none, .ended => some ended
  | responding, _, .aborted => some aborted
  -- what was received before the error
  | failing, _, .data _ => some failing
  | failing, _, .ended => some ended
  | failing, _, .aborted => some aborted
  | ended, none, .timeout => some ended
  | aborted, _, .responseError _ => some aborted
  | refused, _, .close => some closed
  | ended, _, .close => some closed
  | aborted, _, .close => some closed
  | _, _, _ => none

structure Exchange where
  phase : Phase := .waiting
  state : State := {}

def Exchange.step (request : ContainerRequest) (utf8 : List UInt8 → String) (x : Exchange)
    (e : HttpEvent) : Option Exchange :=
  (x.phase.next x.state.destroyed e).map fun phase => ⟨phase, x.state.emit request utf8 e⟩

/-- What one event can be, with the phases on its two sides. -/
inductive Moves : Phase → Option String → HttpEvent → Phase → Prop
  | idle : Moves .waiting none .timeout .waiting
  | refused (destroyed : Option String) (message : String) :
      Moves .waiting destroyed (.requestError message) .refused
  | answered (statusCode : Option ℕ) : Moves .waiting none (.response statusCode) .responding
  | stalled : Moves .responding none .timeout .responding
  | chunk (bytes : List UInt8) : Moves .responding none (.data bytes) .responding
  | whole : Moves .responding none .ended .ended
  | brokenOff (destroyed : Option String) : Moves .responding destroyed .aborted .aborted
  | failed (destroyed : Option String) (message : String) :
      Moves .responding destroyed (.requestError message) .failing
  | rest (destroyed : Option String) (bytes : List UInt8) :
      Moves .failing destroyed (.data bytes) .failing
  | failedWhole (destroyed : Option String) : Moves .failing destroyed .ended .ended
  | failedBroken (destroyed : Option String) : Moves .failing destroyed .aborted .aborted
  | kept : Moves .ended none .timeout .ended
  | late (destroyed : Option String) (message : String) :
      Moves .ended destroyed (.requestError message) .ended
  | thrown (destroyed : Option String) (message : String) :
      Moves .aborted destroyed (.responseError message) .aborted
  | closedRefused (destroyed : Option String) : Moves .refused destroyed .close .closed
  | closedEnded (destroyed : Option String) : Moves .ended destroyed .close .closed
  | closedAborted (destroyed : Option String) : Moves .aborted destroyed .close .closed

theorem moves_of_next {p p' : Phase} {destroyed : Option String} {e : HttpEvent}
    (hnext : p.next destroyed e = some p') : Moves p destroyed e p' := by
  cases e with
  | requestError message =>
    obtain ⟨-, hfails⟩ := Option.ite_none_right_eq_some.mp hnext
    cases p <;> simp only [Phase.fails, reduceCtorEq, Option.some.injEq] at hfails <;>
      subst hfails <;> constructor
  | _ =>
    cases p <;> cases destroyed <;>
      simp only [Phase.next, reduceCtorEq, Option.some.injEq] at hnext <;>
      subst hnext <;> constructor

/-! ## The events so far -/

/-- The bytes of the body. -/
def bodyOf (events : List HttpEvent) : List UInt8 :=
  events.flatMap fun
    | .data chunk => chunk
    | _ => []

/-- The events whose listener resolves the promise. -/
def HttpEvent.resolves : HttpEvent → Bool
  | .requestError _ | .ended => true
  | _ => false

/-- The event that the promise is resolved at. -/
def resolver (events : List HttpEvent) : Option HttpEvent :=
  events.find? HttpEvent.resolves

theorem bodyOf_snoc (events : List HttpEvent) (e : HttpEvent) :
    bodyOf (events ++ [e]) = bodyOf events ++ bodyOf [e] := by
  simp [bodyOf]

theorem resolver_snoc (events : List HttpEvent) (e : HttpEvent) :
    resolver (events ++ [e]) = (resolver events).or (if e.resolves then some e else none) := by
  rw [resolver, List.find?_append, List.find?_singleton, resolver]

theorem resolver_quiet {events : List HttpEvent} {e : HttpEvent} (hnone : resolver events = none)
    (hquiet : e.resolves = false) : resolver (events ++ [e]) = none := by
  simp [resolver_snoc, hnone, hquiet]

theorem not_mem_of_resolver {events : List HttpEvent} (hnone : resolver events = none)
    (message : String) : .requestError message ∉ events :=
  fun hmem => List.find?_eq_none.mp hnone _ hmem rfl

section

variable (request : ContainerRequest) (utf8 : List UInt8 → String)

/-- No response so far. -/
structure Waiting (events : List HttpEvent) (s : State) : Prop where
  pending : s.resolved = none
  unresolved : resolver events = none
  unanswered : ∀ statusCode, .response statusCode ∉ events
  unbroken : .aborted ∉ events
  empty : bodyOf events = []

/-- A response is being read. -/
structure Reading (statusCode : Option ℕ) (events : List HttpEvent) (s : State) : Prop where
  pending : s.resolved = none
  unresolved : resolver events = none
  answered : ∀ statusCode', .response statusCode' ∈ events ↔ statusCode' = statusCode
  unbroken : .aborted ∉ events
  reading : ∃ chunks, s.reading = some (statusCode.getD 0, chunks) ∧ chunks.flatten = bodyOf events

/-- The request emitted an error before the response ended. -/
structure Failed (message : String) (events : List HttpEvent) (s : State) : Prop where
  resolver_eq : resolver events = some (.requestError message)
  resolved : s.resolved = (response request (.failed message)).toOption

/-- The response ended. -/
structure Replied (statusCode : Option ℕ) (events : List HttpEvent) (s : State) : Prop where
  resolver_eq : resolver events = some .ended
  resolved : s.resolved =
    (response request (.reply (statusCode.getD 0) (utf8 (bodyOf events)))).toOption
  answered : ∀ statusCode', .response statusCode' ∈ events ↔ statusCode' = statusCode
  unbroken : .aborted ∉ events

/-- The response broke off, and the request emitted no error. -/
structure Broken (events : List HttpEvent) (s : State) : Prop where
  pending : s.resolved = none
  unresolved : resolver events = none
  broken : .aborted ∈ events

/-- How the events come to their end. -/
inductive Ending (events : List HttpEvent) (s : State) : Prop
  | failed (message : String) (h : Failed request message events s)
  | replied (statusCode : Option ℕ) (h : Replied request utf8 statusCode events s)
  | broken (h : Broken events s)

/-- What holds of an exchange after the events. -/
def Inv (events : List HttpEvent) (x : Exchange) : Prop :=
  match x.phase with
  | .waiting => Waiting events x.state
  | .responding => ∃ statusCode, Reading statusCode events x.state
  | .refused | .failing => ∃ message, Failed request message events x.state
  | .ended => (∃ message, Failed request message events x.state) ∨
      ∃ statusCode, Replied request utf8 statusCode events x.state
  | .aborted => (∃ message, Failed request message events x.state) ∨ Broken events x.state
  | .closed => Ending request utf8 events x.state

end

section

variable (request : ContainerRequest) (utf8 : List UInt8 → String) {events : List HttpEvent}
  {s : State}

theorem Waiting.start : Waiting [] {} :=
  ⟨rfl, rfl, by simp, by simp, rfl⟩

theorem Waiting.timeout (hw : Waiting events s) :
    Waiting (events ++ [.timeout]) (s.emit request utf8 .timeout) where
  pending := hw.pending
  unresolved := resolver_quiet hw.unresolved rfl
  unanswered := by simpa using hw.unanswered
  unbroken := by simpa using hw.unbroken
  empty := by rw [bodyOf_snoc, hw.empty]; rfl

theorem Waiting.response (hw : Waiting events s) (statusCode : Option ℕ) :
    Reading statusCode (events ++ [.response statusCode])
      (s.emit request utf8 (.response statusCode)) where
  pending := hw.pending
  unresolved := resolver_quiet hw.unresolved rfl
  answered := by simp [hw.unanswered]
  unbroken := by simpa using hw.unbroken
  reading := ⟨[], rfl, by rw [bodyOf_snoc, hw.empty]; rfl⟩

/-- The first error on the request resolves the promise, whether a response began or not. -/
theorem Failed.of_pending (hpending : s.resolved = none) (hunresolved : resolver events = none)
    (message : String) :
    Failed request message (events ++ [.requestError message])
      (s.emit request utf8 (.requestError message)) where
  resolver_eq := by rw [resolver_snoc, hunresolved]; rfl
  resolved := by
    change s.resolved.or _ = _
    rw [hpending, Option.none_or]

variable {statusCode : Option ℕ}

theorem Reading.timeout (hr : Reading statusCode events s) :
    Reading statusCode (events ++ [.timeout]) (s.emit request utf8 .timeout) where
  pending := hr.pending
  unresolved := resolver_quiet hr.unresolved rfl
  answered := by simpa using hr.answered
  unbroken := by simpa using hr.unbroken
  reading := by
    obtain ⟨chunks, hchunks, hflat⟩ := hr.reading
    exact ⟨chunks, hchunks, by rw [bodyOf_snoc, hflat]; exact (List.append_nil _).symm⟩

theorem Reading.data (hr : Reading statusCode events s) (bytes : List UInt8) :
    Reading statusCode (events ++ [.data bytes]) (s.emit request utf8 (.data bytes)) where
  pending := hr.pending
  unresolved := resolver_quiet hr.unresolved rfl
  answered := by simpa using hr.answered
  unbroken := by simpa using hr.unbroken
  reading := by
    obtain ⟨chunks, hchunks, hflat⟩ := hr.reading
    refine ⟨chunks ++ [bytes], ?_, ?_⟩
    · change s.reading.map _ = _
      rw [hchunks]
      rfl
    · rw [List.flatten_append, bodyOf_snoc, hflat]
      rfl

theorem Reading.ended (hr : Reading statusCode events s) :
    Replied request utf8 statusCode (events ++ [.ended]) (s.emit request utf8 .ended) := by
  obtain ⟨chunks, hchunks, hflat⟩ := hr.reading
  have hemit : s.emit request utf8 .ended =
      s.resolve request (.reply (statusCode.getD 0) (utf8 chunks.flatten)) := by
    change s.listen request utf8 .ended = _
    rw [State.listen, hchunks]
  have hbody : bodyOf (events ++ [.ended]) = chunks.flatten := by
    rw [bodyOf_snoc, hflat]
    exact List.append_nil _
  rw [hemit]
  refine ⟨?_, ?_, by simpa using hr.answered, by simpa using hr.unbroken⟩
  · rw [resolver_snoc, hr.unresolved]
    rfl
  · change s.resolved.or _ = _
    rw [hr.pending, Option.none_or, hbody]

theorem Reading.aborted (hr : Reading statusCode events s) :
    Broken (events ++ [.aborted]) (s.emit request utf8 .aborted) where
  pending := hr.pending
  unresolved := resolver_quiet hr.unresolved rfl
  broken := by simp

theorem Broken.responseError (hb : Broken events s) (message : String) :
    Broken (events ++ [.responseError message]) (s.emit request utf8 (.responseError message)) where
  pending := hb.pending
  unresolved := resolver_quiet hb.unresolved rfl
  broken := List.mem_append_left _ hb.broken

theorem Broken.close (hb : Broken events s) :
    Broken (events ++ [.close]) (s.emit request utf8 .close) where
  pending := hb.pending
  unresolved := resolver_quiet hb.unresolved rfl
  broken := List.mem_append_left _ hb.broken

/-- A promise is resolved once. -/
theorem emit_resolved {v : Json} (hresolved : s.resolved = some v) (e : HttpEvent) :
    (s.emit request utf8 e).resolved = some v := by
  have hresolve : ∀ outcome, (s.resolve request outcome).resolved = some v := by
    intro outcome
    rw [State.resolve, hresolved, Option.some_or]
  cases e with
  | requestError message => exact hresolve _
  | ended =>
    change (s.listen request utf8 .ended).resolved = some v
    rw [State.listen]
    cases s.reading with
    | none => exact hresolved
    | some reading => exact hresolve _
  | _ => exact hresolved

variable {request}

/-- What comes after the first error on the request changes nothing. -/
theorem Failed.snoc {message : String} (hf : Failed request message events s) (e : HttpEvent) :
    Failed request message (events ++ [e]) (s.emit request utf8 e) where
  resolver_eq := by rw [resolver_snoc, hf.resolver_eq, Option.some_or]
  resolved := emit_resolved request utf8 hf.resolved e

variable {utf8}

/-- Nor does what may come after the `end` of the response. -/
theorem Replied.snoc (hr : Replied request utf8 statusCode events s) {e : HttpEvent}
    (hquiet : e = .timeout ∨ e = .close ∨ ∃ message, e = .requestError message) :
    Replied request utf8 statusCode (events ++ [e]) (s.emit request utf8 e) := by
  obtain ⟨v, hv⟩ : ∃ v, (response request
      (.reply (statusCode.getD 0) (utf8 (bodyOf events)))).toOption = some v := by
    rw [response]
    split_ifs
    · exact ⟨_, rfl⟩
    · exact ⟨_, rfl⟩
    · cases Json.parse (utf8 (bodyOf events)).toList <;> exact ⟨_, rfl⟩
  have hbody : bodyOf (events ++ [e]) = bodyOf events := by
    obtain rfl | rfl | ⟨message, rfl⟩ := hquiet <;>
      exact (bodyOf_snoc _ _).trans (List.append_nil _)
  refine ⟨?_, ?_, ?_, ?_⟩
  · rw [resolver_snoc, hr.resolver_eq, Option.some_or]
  · rw [hbody, hv]
    exact emit_resolved request utf8 (hr.resolved.trans hv) e
  · obtain rfl | rfl | ⟨message, rfl⟩ := hquiet <;> simpa using hr.answered
  · obtain rfl | rfl | ⟨message, rfl⟩ := hquiet <;> simpa using hr.unbroken

theorem inv_start : Inv request utf8 [] {} := Waiting.start

theorem inv_step (events : List HttpEvent) (x : Exchange) (e : HttpEvent) (x' : Exchange)
    (hinv : Inv request utf8 events x) (hstep : x.step request utf8 e = some x') :
    Inv request utf8 (events ++ [e]) x' := by
  obtain ⟨p, s⟩ := x
  obtain ⟨p', hnext, rfl⟩ := Option.map_eq_some_iff.mp hstep
  dsimp only at hnext ⊢
  have hmoves := moves_of_next hnext
  generalize hdestroyed : s.destroyed = destroyed at hmoves
  cases hmoves with
  | idle => exact hinv.timeout request utf8
  | refused _ message => exact ⟨message, .of_pending request utf8 hinv.pending hinv.unresolved _⟩
  | answered statusCode => exact ⟨statusCode, hinv.response request utf8 statusCode⟩
  | stalled => exact hinv.imp fun _ hr => hr.timeout request utf8
  | chunk bytes => exact hinv.imp fun _ hr => hr.data request utf8 bytes
  | whole => exact .inr (hinv.imp fun _ hr => hr.ended request utf8)
  | brokenOff =>
    obtain ⟨_, hr⟩ := hinv
    exact .inr (hr.aborted request utf8)
  | failed _ message =>
    obtain ⟨_, hr⟩ := hinv
    exact ⟨message, .of_pending request utf8 hr.pending hr.unresolved _⟩
  | rest => exact hinv.imp fun _ hf => hf.snoc utf8 _
  | failedWhole => exact .inl (hinv.imp fun _ hf => hf.snoc utf8 _)
  | failedBroken => exact .inl (hinv.imp fun _ hf => hf.snoc utf8 _)
  | kept => exact hinv.imp (.imp fun _ hf => hf.snoc utf8 _) (.imp fun _ hr => hr.snoc (.inl rfl))
  | late _ message =>
    exact hinv.imp (.imp fun _ hf => hf.snoc utf8 _)
      (.imp fun _ hr => hr.snoc (.inr (.inr ⟨message, rfl⟩)))
  | thrown _ message =>
    exact hinv.imp (.imp fun _ hf => hf.snoc utf8 _) fun hb => hb.responseError request utf8 message
  | closedRefused =>
    obtain ⟨message, hf⟩ := hinv
    exact .failed message (hf.snoc utf8 _)
  | closedEnded =>
    obtain ⟨message, hf⟩ | ⟨statusCode, hr⟩ := hinv
    · exact .failed message (hf.snoc utf8 _)
    · exact .replied statusCode (hr.snoc (.inr (.inl rfl)))
  | closedAborted =>
    obtain ⟨message, hf⟩ | hb := hinv
    · exact .failed message (hf.snoc utf8 _)
    · exact .broken (hb.close request utf8)

/-- The only error that nobody listens for is one on the response. -/
theorem emit_unhandled (s : State) (e : HttpEvent) :
    (s.emit request utf8 e).unhandled = false ↔
      s.unhandled = false ∧ ∀ message, e ≠ .responseError message := by
  cases e with
  | responseError message => exact iff_of_false Bool.noConfusion fun h => h.2 message rfl
  | ended =>
    change (s.listen request utf8 .ended).unhandled = false ↔ _
    rw [State.listen]
    cases s.reading <;> simp [State.resolve]
  | _ => simp [State.emit, listeners, HttpEvent.source, State.listen, State.resolve]

theorem handled_iff {x : Exchange}
    (hrun : Machine.run (Exchange.step request utf8) {} events = some x) :
    x.state.unhandled = false ↔ ∀ message, .responseError message ∉ events := by
  refine Machine.invariant (I := fun events x =>
    x.state.unhandled = false ↔ ∀ message, .responseError message ∉ events) (by simp) ?_ hrun
  intro events x e x' hinv hstep
  obtain ⟨p', -, rfl⟩ := Option.map_eq_some_iff.mp hstep
  rw [emit_unhandled, hinv, ← forall_and]
  refine forall_congr' fun message => ?_
  rw [List.mem_append, not_or, List.mem_singleton, ne_comm]

end

/-! ## Which deliveries settle -/

/-- The promise is resolved with a container response, and every error was listened for. -/
def Settled (s : State) : Prop :=
  (∃ v, s.resolved = some v ∧ wellFormed v = true) ∧ s.unhandled = false

/-- A response breaks off only where its request emits an error and it emits none itself, and the
    body of one that ends is a container response, if it is JSON, no error on the request came
    before and the status is not one of the three that `deliver` answers itself. -/
structure Complete (utf8 : List UInt8 → String) (events : List HttpEvent) : Prop where
  unbroken : .aborted ∈ events → ∃ message, .requestError message ∈ events
  silent : ∀ message, .responseError message ∉ events
  checked : resolver events = some .ended → ∀ statusCode, .response statusCode ∈ events →
    statusCode ∉ [some 401, some 403, some 503] →
    ∀ v, Json.parse (utf8 (bodyOf events)).toList = some v → wellFormed v = true

theorem wellFormed_fail (request : ContainerRequest) (kind : ContainerFailureKind)
    (message : String) (retryable : Bool) :
    wellFormed (fail request kind message retryable) = true := by
  have hkind := any_kind kind
  cases retryable <;>
    simp [fail, wellFormed, isFailure, Json.get, Json.isBool, Json.isString, hkind]

theorem wellFormed_failed (request : ContainerRequest) (message : String) :
    ∃ v, (response request (.failed message)).toOption = some v ∧ wellFormed v = true :=
  ⟨_, rfl, wellFormed_fail _ _ _ _⟩

theorem wellFormed_reply (request : ContainerRequest) (statusCode : Option ℕ) (body : String) :
    (∃ v, (response request (.reply (statusCode.getD 0) body)).toOption = some v ∧
        wellFormed v = true) ↔
      (statusCode ∉ [some 401, some 403, some 503] →
        ∀ v, Json.parse body.toList = some v → wellFormed v = true) := by
  have hmem : statusCode ∈ [some 401, some 403, some 503] ↔
      (statusCode.getD 0 = 401 ∨ statusCode.getD 0 = 403) ∨ statusCode.getD 0 = 503 := by
    cases statusCode <;> simp [or_assoc]
  rw [hmem, response]
  by_cases hauth : statusCode.getD 0 = 401 ∨ statusCode.getD 0 = 403
  · rw [if_pos hauth]
    exact iff_of_true ⟨_, rfl, wellFormed_fail _ _ _ _⟩ fun hnot => absurd (.inl hauth) hnot
  by_cases hload : statusCode.getD 0 = 503
  · rw [if_neg hauth, if_pos hload]
    exact iff_of_true ⟨_, rfl, wellFormed_fail _ _ _ _⟩ fun hnot => absurd (.inr hload) hnot
  rw [if_neg hauth, if_neg hload, imp_iff_right (not_or_intro hauth hload)]
  cases Json.parse body.toList with
  | none => exact iff_of_true ⟨_, rfl, wellFormed_fail _ _ _ _⟩ nofun
  | some v =>
    simp only [Except.toOption, Option.some.injEq, exists_eq_left', forall_eq']

variable {request : ContainerRequest} {utf8 : List UInt8 → String} {events : List HttpEvent}

theorem Ending.settled_iff {s : State} (he : Ending request utf8 events s)
    (hhandled : s.unhandled = false ↔ ∀ message, .responseError message ∉ events) :
    Settled s ↔ Complete utf8 events := by
  rw [Settled, hhandled]
  cases he with
  | failed message hf =>
    constructor
    · rintro ⟨-, hsilent⟩
      refine ⟨fun _ => ⟨message, List.mem_of_find?_eq_some hf.resolver_eq⟩, hsilent, ?_⟩
      intro hended
      rw [hf.resolver_eq] at hended
      cases hended
    · intro hcomplete
      rw [hf.resolved]
      exact ⟨wellFormed_failed request message, hcomplete.silent⟩
  | replied statusCode hr =>
    rw [hr.resolved, wellFormed_reply]
    constructor
    · rintro ⟨hbody, hsilent⟩
      refine ⟨fun hbroken => absurd hbroken hr.unbroken, hsilent, fun _ c hc => ?_⟩
      rw [(hr.answered c).mp hc]
      exact hbody
    · intro hcomplete
      exact ⟨hcomplete.checked hr.resolver_eq statusCode ((hr.answered statusCode).mpr rfl),
        hcomplete.silent⟩
  | broken hb =>
    refine iff_of_false ?_ fun hcomplete => ?_
    · rintro ⟨⟨v, hv, -⟩, -⟩
      rw [hb.pending] at hv
      cases hv
    · obtain ⟨message, hmem⟩ := hcomplete.unbroken hb.broken
      exact not_mem_of_resolver hb.unresolved message hmem

/-- By its `close`, a delivery has settled with a container response exactly if the response was not
    broken off alone, and was one. -/
theorem settles_iff {x : Exchange}
    (hrun : Machine.run (Exchange.step request utf8) {} events = some x)
    (hclosed : x.phase = .closed) : Settled x.state ↔ Complete utf8 events := by
  have hinv : Inv request utf8 events x := Machine.invariant inv_start inv_step hrun
  rw [Inv, hclosed] at hinv
  exact hinv.settled_iff (handled_iff hrun)

/-- A request of one second. -/
def ping : ContainerRequest where
  protocolVersion := wireProtocolVersion
  correlationId := "c"
  modelClass := .localFast
  systemPrompt := ""
  userPrompt := "ping"
  temperature := none
  highRisk := false
  deadlineMs := 1000

/-- The deadline passes while the body is read. -/
theorem settles_iff_late_deadline :
    Settled { reading := some (200, [[123]])
              destroyed := some "deadline exceeded"
              resolved := some (fail ping .timeout "deadline exceeded" true) } ↔
      Complete (fun _ => "") [.response (some 200), .data [123], .timeout,
        .requestError "deadline exceeded", .aborted, .close] :=
  @settles_iff ping (fun _ => "") _ ⟨.closed, _⟩ rfl rfl

/-- The server closes the connection in mid-body: the promise is never resolved. -/
theorem closed_midBody_unsettled :
    ∃ x, Machine.run (Exchange.step ping fun _ => "") {}
        [.response (some 200), .data [123], .aborted, .close] = some x ∧
      x.phase = .closed ∧ x.state.resolved = none ∧ ¬ Settled x.state := by
  refine ⟨_, rfl, rfl, rfl, ?_⟩
  rintro ⟨⟨v, hv, -⟩, -⟩
  cases hv

end Harp.Delivery
