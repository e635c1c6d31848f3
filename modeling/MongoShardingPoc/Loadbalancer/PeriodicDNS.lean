import MongoShardingPoc.Loadbalancer.StaticResolver
import Mathlib.Logic.Function.Basic

/-!
# The periodic DNS resolver

`PeriodicDNSResolver` wraps gRPC's DNS resolver, `inner`, and asks it to
resolve again on every tick of a ticker.  Three kinds of goroutine act on it:

* the `refreshLoop` goroutine that `Build` starts: it creates the ticker and
  then loops on a `select` between `ticker.C` and `r.done`;
* callers of `r.ResolveNow`, which forwards to `r.inner.ResolveNow`;
* callers of `r.Close`, which run `close(r.done)` and `r.inner.Close()` inside
  `r.once.Do`.

The model is one state machine over all of them, with one action per atomic
step.  `sync.Once.Do` is taken as the standard library writes it: a fast path
that loads `o.done`, and a slow path that takes `o.m`, loads `o.done` again,
runs `f`, and then, deferred, stores `o.done` and unlocks `o.m`.  A `select`
takes any ready case, so while a tick waits in `ticker.C` and `r.done` is
closed both `receiveTick` and `receiveDone` are enabled.  Any goroutine may
call `ResolveNow` or `Close` any number of times, one call at a time.

`time.NewTicker` panics when `r.interval` is not positive, and a panic that
no deferred call recovers ends the whole program.  So `newTicker` has no
successor then: every state the model reaches is one the program reaches
before the panic, and the loop never gets past `time.NewTicker`.

The counters `doneCloses`, `innerCloseCalls`, `innerCloseReturns`,
`innerResolveNows`, `closeCalls` and `closeReturns` are not fields of the Go
struct: they count the events the properties below speak about.
-/

namespace MongoShardingPoc.Loadbalancer

open MongoShardingPoc.Go

/-- Where the `refreshLoop` goroutine is: `started` by `go r.refreshLoop()`
before `time.NewTicker`, `selecting` at the `select`, `resolving` inside
`r.inner.ResolveNow` after a tick, `returned` after receiving from `r.done`
(the deferred `ticker.Stop()` has run). -/
inductive LoopPc where
  | started
  | selecting
  | resolving
  | returned
  deriving DecidableEq, Repr

/-- Where a goroutine calling into the resolver is: `idle` outside it,
`resolving` while `r.ResolveNow` is inside `r.inner.ResolveNow`, and inside
`r.Close`: `locking` waiting in `o.m.Lock()`, `closingDone` before
`close(r.done)`, `closingInner` before calling `r.inner.Close()`,
`innerClosing` inside it, `storing` before the deferred `o.done.Store(1)`,
`unlocking` before the deferred `o.m.Unlock()`, after which `Close` returns. -/
inductive CallerPc where
  | idle
  | resolving
  | locking
  | closingDone
  | closingInner
  | innerClosing
  | storing
  | unlocking
  deriving DecidableEq, Repr

/-- A `PeriodicDNSResolver` with its goroutines.  `interval` is the
`time.Duration` (int64 nanoseconds) that `Build` copies from the builder;
`tickWaiting` is a tick in `ticker.C`; `onceDone` is `r.once.done`, and
`onceOwner` the goroutine that holds `r.once.m`. -/
structure Resolver where
  interval : BitVec 64
  loop : LoopPc
  tickWaiting : Bool
  doneClosed : Bool
  onceDone : Bool
  onceOwner : Option Nat
  callers : Nat → CallerPc
  doneCloses : Nat
  innerCloseCalls : Nat
  innerCloseReturns : Nat
  innerResolveNows : Nat
  closeCalls : Nat
  closeReturns : Nat

/-- The resolver `Build` returns: `refreshLoop` just started, no call made. -/
def Resolver.started (interval : BitVec 64) : Resolver where
  interval := interval
  loop := .started
  tickWaiting := false
  doneClosed := false
  onceDone := false
  onceOwner := none
  callers := fun _ => .idle
  doneCloses := 0
  innerCloseCalls := 0
  innerCloseReturns := 0
  innerResolveNows := 0
  closeCalls := 0
  closeReturns := 0

structure PeriodicDNSBuilder where
  interval : BitVec 64

/-- `periodicDNSBuilder.Build`, given what `resolver.Get("dns")` gives: no
builder, or one whose `Build` returns `innerBuild`. -/
def PeriodicDNSBuilder.build (b : PeriodicDNSBuilder)
    (dnsBuilder : Option (Except GoError Unit)) : Except GoError Resolver :=
  match dnsBuilder with
  | none => .error (.plain "dns resolver not found (this should never happen)")
  | some (.error err) => .error (.wrapped "dns resolver build: %v" err)
  | some (.ok ()) => .ok (.started b.interval)

def PeriodicDNSBuilder.scheme (_ : PeriodicDNSBuilder) : String :=
  "dns"

/-- One atomic step: of `refreshLoop` (`newTicker`, `receiveTick`,
`innerResolved`, `receiveDone`), of the ticker (`tick`), or of goroutine `g`
(`resolveNow g` and `close g` call into the resolver, `advance g` takes the
next step inside it). -/
inductive Action where
  | newTicker
  | tick
  | receiveTick
  | innerResolved
  | receiveDone
  | resolveNow (g : Nat)
  | close (g : Nat)
  | advance (g : Nat)
  deriving DecidableEq, Repr

namespace Resolver

def setCaller (s : Resolver) (g : Nat) (pc : CallerPc) : Resolver :=
  { s with callers := Function.update s.callers g pc }

/-- The next step of goroutine `g` inside `ResolveNow` or `Close`; `none`
when it is blocked on `o.m` or outside the resolver. -/
def advance (s : Resolver) (g : Nat) : Option Resolver :=
  match s.callers g with
  | .idle => none
  | .resolving => some (s.setCaller g .idle)
  | .locking =>
    if s.onceOwner = none then
      some { (s.setCaller g (if s.onceDone then .unlocking else .closingDone)) with
        onceOwner := some g }
    else none
  | .closingDone =>
    some { (s.setCaller g .closingInner) with
      doneClosed := true, doneCloses := s.doneCloses + 1 }
  | .closingInner =>
    some { (s.setCaller g .innerClosing) with innerCloseCalls := s.innerCloseCalls + 1 }
  | .innerClosing =>
    some { (s.setCaller g .storing) with innerCloseReturns := s.innerCloseReturns + 1 }
  | .storing => some { (s.setCaller g .unlocking) with onceDone := true }
  | .unlocking =>
    some { (s.setCaller g .idle) with onceOwner := none, closeReturns := s.closeReturns + 1 }

/-- One step of the resolver's goroutines; `none` when the action is not
enabled. -/
def step (s : Resolver) : Action → Option Resolver
  | .newTicker =>
    if s.loop = .started ∧ 0 < s.interval.toInt then some { s with loop := .selecting } else none
  | .tick =>
    if s.loop = .selecting ∨ s.loop = .resolving then some { s with tickWaiting := true }
    else none
  | .receiveTick =>
    if s.loop = .selecting ∧ s.tickWaiting then
      some { s with
        loop := .resolving, tickWaiting := false, innerResolveNows := s.innerResolveNows + 1 }
    else none
  | .innerResolved => if s.loop = .resolving then some { s with loop := .selecting } else none
  | .receiveDone =>
    if s.loop = .selecting ∧ s.doneClosed then some { s with loop := .returned } else none
  | .resolveNow g =>
    if s.callers g = .idle then
      some { (s.setCaller g .resolving) with innerResolveNows := s.innerResolveNows + 1 }
    else none
  | .close g =>
    if s.callers g = .idle then
      if s.onceDone then
        some { s with closeCalls := s.closeCalls + 1, closeReturns := s.closeReturns + 1 }
      else some { (s.setCaller g .locking) with closeCalls := s.closeCalls + 1 }
    else none
  | .advance g => s.advance g

def run (s : Resolver) : List Action → Option Resolver
  | [] => some s
  | a :: actions => (s.step a).bind fun s' => s'.run actions

end Resolver

/-- The states some interleaving of the goroutines reaches from `Build`. -/
inductive Reachable : Resolver → Prop
  | started (interval : BitVec 64) : Reachable (.started interval)
  | step {s s' : Resolver} (a : Action) : Reachable s → s.step a = some s' → Reachable s'

theorem Reachable.run {s : Resolver} (reachable : Reachable s) (actions : List Action)
    {s' : Resolver} (ran : s.run actions = some s') : Reachable s' := by
  induction actions generalizing s with
  | nil =>
      cases ran
      exact reachable
  | cons a actions inductionHypothesis =>
      simp only [Resolver.run, Option.bind_eq_some] at ran
      obtain ⟨middle, stepped, ran⟩ := ran
      exact inductionHypothesis (reachable.step a stepped) ran

/-! ## One lemma per field of `setCaller` -/

namespace Resolver

variable (s : Resolver) (g : Nat) (pc : CallerPc)

@[simp] theorem setCaller_callers : (s.setCaller g pc).callers = Function.update s.callers g pc :=
  rfl
@[simp] theorem setCaller_interval : (s.setCaller g pc).interval = s.interval := rfl
@[simp] theorem setCaller_loop : (s.setCaller g pc).loop = s.loop := rfl
@[simp] theorem setCaller_tickWaiting : (s.setCaller g pc).tickWaiting = s.tickWaiting := rfl
@[simp] theorem setCaller_doneClosed : (s.setCaller g pc).doneClosed = s.doneClosed := rfl
@[simp] theorem setCaller_onceDone : (s.setCaller g pc).onceDone = s.onceDone := rfl
@[simp] theorem setCaller_onceOwner : (s.setCaller g pc).onceOwner = s.onceOwner := rfl
@[simp] theorem setCaller_doneCloses : (s.setCaller g pc).doneCloses = s.doneCloses := rfl
@[simp] theorem setCaller_innerCloseCalls :
    (s.setCaller g pc).innerCloseCalls = s.innerCloseCalls := rfl
@[simp] theorem setCaller_innerCloseReturns :
    (s.setCaller g pc).innerCloseReturns = s.innerCloseReturns := rfl
@[simp] theorem setCaller_innerResolveNows :
    (s.setCaller g pc).innerResolveNows = s.innerResolveNows := rfl
@[simp] theorem setCaller_closeCalls : (s.setCaller g pc).closeCalls = s.closeCalls := rfl
@[simp] theorem setCaller_closeReturns : (s.setCaller g pc).closeReturns = s.closeReturns := rfl

end Resolver

/-! ## What the callers' steps leave alone -/

namespace Resolver

variable {s s' : Resolver} {g : Nat}

theorem advance_frame (stepped : s.advance g = some s') :
    s'.loop = s.loop ∧ s'.tickWaiting = s.tickWaiting ∧
      s'.innerResolveNows = s.innerResolveNows := by
  unfold advance at stepped
  split at stepped <;> (try split at stepped) <;> cases stepped <;> exact ⟨rfl, rfl, rfl⟩

theorem close_frame (stepped : s.step (.close g) = some s') :
    s'.loop = s.loop ∧ s'.tickWaiting = s.tickWaiting ∧
      s'.innerResolveNows = s.innerResolveNows := by
  simp only [step] at stepped
  split at stepped <;> (try split at stepped) <;> cases stepped <;> exact ⟨rfl, rfl, rfl⟩

theorem step_interval {a : Action} (stepped : s.step a = some s') : s'.interval = s.interval := by
  cases a <;> simp only [step, advance] at stepped <;>
    split at stepped <;> (try split at stepped) <;> cases stepped <;> rfl

theorem advance_callers_of_ne {k : Nat} (stepped : s.advance g = some s') (other : k ≠ g) :
    s'.callers k = s.callers k := by
  unfold advance at stepped
  split at stepped <;> (try split at stepped) <;> cases stepped <;>
    exact Function.update_noteq other _ _

theorem run_append (s : Resolver) (first rest : List Action) :
    s.run (first ++ rest) = (s.run first).bind fun s' => s'.run rest := by
  induction first generalizing s with
  | nil =>
      rfl
  | cons a first inductionHypothesis =>
      rw [List.cons_append, run, run, Option.bind_assoc]
      simp only [inductionHypothesis]

end Resolver

end MongoShardingPoc.Loadbalancer
