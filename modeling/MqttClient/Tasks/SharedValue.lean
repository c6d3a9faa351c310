/-
# Handing values over: `shared_value`

`modbus_task` stores every register it reads in `shared_value` and signals `cond`;
`mqtt_pub_task` waits for the signal and takes the value.  Both do so inside `mutex`,
and the publisher publishes and sleeps outside.  The wait has no predicate: nothing but
the signal says that there is a value, and a signal finds the publisher only while it
is blocked.

So a value that is stored while the publisher is publishing, sleeping or on its way
from a wake-up to the mutex may be overwritten before it is taken.  What is taken is
still in order and never twice: each wake-up belongs to a value stored after the
previous take.
-/

import MqttClient.Semantics.Monitor
import MqttClient.Semantics.Transition
import Mathlib.Data.Finset.Insert

namespace MqttClient

open Semantics

/-! ## The two tasks -/

/-- The threads that use `mutex`. -/
inductive MutexUser
  | modbus
  | pub
  deriving DecidableEq, Repr

instance : Fintype MutexUser := ⟨{.modbus, .pub}, fun t => by cases t <;> decide⟩

/-- Where `modbus_task` is. -/
inductive ModbusAt
  /-- Anywhere outside the critical section, up to the read of the register. -/
  | reading
  /-- At `pthread_mutex_lock`, with `r_regs[0]`. -/
  | locking (value : UInt16)
  /-- At the assignment of `shared_value`. -/
  | storing (value : UInt16)
  /-- At `pthread_cond_signal`. -/
  | signalling
  /-- At `pthread_mutex_unlock`. -/
  | unlocking
  deriving DecidableEq, Repr

/-- Where `mqtt_pub_task` is. -/
inductive PubAt
  /-- In the loop of attempts. -/
  | connecting
  /-- At `pthread_mutex_lock`. -/
  | locking
  /-- At `pthread_cond_wait`. -/
  | calling
  /-- In `pthread_cond_wait`. -/
  | waiting
  /-- At the assignment of `ulNotifiedValue`. -/
  | taking
  /-- At `pthread_mutex_unlock`. -/
  | unlocking (ulNotifiedValue : Nat)
  /-- Between `pthread_mutex_unlock` and the result of `MQTTPublish`. -/
  | publishing (ulNotifiedValue : Nat)
  /-- In `sleep_ms`, up to the condition of the loop. -/
  | sleeping
  /-- Ten attempts in a row have failed. -/
  | returned
  deriving DecidableEq, Repr

/-- The publisher has a connection: it is in the publishing loop. -/
def PubAt.isConnected : PubAt → Bool
  | connecting | returned => false
  | _ => true

/-- The two tasks and what they share. -/
structure Handover where
  monitor : Monitor MutexUser
  modbus : ModbusAt
  pub : PubAt
  sharedValue : Nat

/-- What the tasks do. -/
inductive Handover.Move
  | read (value : UInt16)
  | modbusLock
  | store
  | signal
  | modbusUnlock
  /-- `MqttConnectBroker` returns. -/
  | connect (success : Bool)
  /-- The tenth attempt has failed. -/
  | giveUp
  | pubLock
  /-- `pthread_cond_wait` gives up the mutex and blocks. -/
  | block
  /-- `pthread_cond_wait` returns an error without blocking, and is called again. -/
  | waitError
  /-- The publisher is woken without a signal. -/
  | wakeUp
  /-- `pthread_cond_wait` returns 0, with the mutex. -/
  | reacquire
  | take
  | pubUnlock
  /-- `MQTTPublish` returns. -/
  | publish (success : Bool)
  /-- The condition of the loop is tested. -/
  | sleepOver (isconnected : Bool)
  deriving DecidableEq, Repr

namespace Handover

/-- One step of one of the tasks. -/
inductive Step : Handover → Move → Handover → Prop
  | read {s : Handover} (value : UInt16) (hat : s.modbus = .reading) :
      Step s (.read value) { s with modbus := .locking value }
  | modbusLock {s : Handover} {value : UInt16} (hat : s.modbus = .locking value)
      (hfree : s.monitor.IsFree) :
      Step s .modbusLock
        { s with monitor := s.monitor.enter .modbus hfree, modbus := .storing value }
  | store {s : Handover} {value : UInt16} (hat : s.modbus = .storing value) :
      Step s .store { s with modbus := .signalling, sharedValue := value.toNat }
  | signal {s : Handover} {m : Monitor MutexUser} (hat : s.modbus = .signalling)
      (hsignals : s.monitor.Signals m) :
      Step s .signal { s with monitor := m, modbus := .unlocking }
  | modbusUnlock {s : Handover} (hat : s.modbus = .unlocking) :
      Step s .modbusUnlock { s with monitor := s.monitor.unlock .modbus, modbus := .reading }
  | connect {s : Handover} (success : Bool) (hat : s.pub = .connecting) :
      Step s (.connect success) { s with pub := if success then .locking else .connecting }
  | giveUp {s : Handover} (hat : s.pub = .connecting) : Step s .giveUp { s with pub := .returned }
  | pubLock {s : Handover} (hat : s.pub = .locking) (hfree : s.monitor.IsFree) :
      Step s .pubLock { s with monitor := s.monitor.enter .pub hfree, pub := .calling }
  | block {s : Handover} (hat : s.pub = .calling) :
      Step s .block { s with monitor := s.monitor.wait .pub, pub := .waiting }
  | waitError {s : Handover} (hat : s.pub = .calling) : Step s .waitError s
  | wakeUp {s : Handover} (hat : s.pub = .waiting)
      (hblocked : s.monitor.standing .pub = .blocked) :
      Step s .wakeUp { s with monitor := s.monitor.wake .pub }
  | reacquire {s : Handover} (hat : s.pub = .waiting)
      (hwoken : s.monitor.standing .pub = .woken) (hfree : s.monitor.IsFree) :
      Step s .reacquire { s with monitor := s.monitor.enter .pub hfree, pub := .taking }
  | take {s : Handover} (hat : s.pub = .taking) :
      Step s .take { s with pub := .unlocking s.sharedValue }
  | pubUnlock {s : Handover} {value : Nat} (hat : s.pub = .unlocking value) :
      Step s .pubUnlock { s with monitor := s.monitor.unlock .pub, pub := .publishing value }
  | publish {s : Handover} {value : Nat} (success : Bool) (hat : s.pub = .publishing value) :
      Step s (.publish success) { s with pub := if success then .sleeping else .connecting }
  | sleepOver {s : Handover} (isconnected : Bool) (hat : s.pub = .sleeping) :
      Step s (.sleepOver isconnected)
        { s with pub := if isconnected then .locking else .connecting }

/-- Nothing has been read, and there is no connection. -/
def start : Handover := ⟨.idle, .reading, .connecting, 0⟩

end Handover

/-! ## Where the threads stand -/

/-- Where `modbus_task` stands. -/
def ModbusAt.standing : ModbusAt → Standing
  | reading | locking _ => .outside
  | storing _ | signalling | unlocking => .inside

/-- Where `mqtt_pub_task` may stand: only in the wait this depends on the signals. -/
def PubAt.StandsAt : PubAt → Standing → Prop
  | waiting, standing => standing = .blocked ∨ standing = .woken
  | calling, standing | taking, standing | unlocking _, standing => standing = .inside
  | connecting, standing | locking, standing | publishing _, standing | sleeping, standing
  | returned, standing => standing = .outside

namespace Handover

/-- The threads stand where their code puts them. -/
structure Located (s : Handover) : Prop where
  modbus : s.monitor.standing .modbus = s.modbus.standing
  pub : s.pub.StandsAt (s.monitor.standing .pub)

theorem located_start : Located start := ⟨rfl, rfl⟩

/-- `modbus_task` never waits. -/
theorem Located.eq_pub_of_blocked {s : Handover} (h : Located s) (t : MutexUser)
    (hblocked : s.monitor.standing t = .blocked) : t = .pub := by
  cases t with
  | pub => rfl
  | modbus =>
      rw [h.modbus] at hblocked
      generalize s.modbus = at' at hblocked
      cases at' <;> cases hblocked

/-- The mutex keeps `mqtt_pub_task` from taking while `modbus_task` is between storing
and signalling. -/
theorem Located.not_taking {s : Handover} (h : Located s) (hat : s.modbus = .signalling) :
    s.pub ≠ .taking := by
  intro htaking
  have hmodbus := h.modbus
  have hpub := h.pub
  rw [hat] at hmodbus
  rw [htaking] at hpub
  cases s.monitor.exclusive hmodbus hpub

/-- After a signal the publisher is not blocked, and otherwise where it was. -/
theorem Located.standing_pub_of_signals {s : Handover} {m : Monitor MutexUser} (h : Located s)
    (hsignals : s.monitor.Signals m) :
    m.standing .pub =
      if s.monitor.standing .pub = .blocked then .woken else s.monitor.standing .pub := by
  split
  · exact hsignals.standing_eq_woken ‹_› h.eq_pub_of_blocked
  · exact hsignals.standing_eq ‹_›

theorem eq_waiting_of_blocked {at' : PubAt} (h : at'.StandsAt .blocked) : at' = .waiting := by
  cases at' <;> first | rfl | cases h

theorem located_step {s s' : Handover} {move : Move} (hstep : Step s move s') (h : Located s) :
    Located s' := by
  have hmodbus := h.modbus
  have hpub := h.pub
  cases hstep with
  | signal hat hsignals =>
      rw [hat] at hmodbus
      constructor
      · rw [hsignals.standing_eq (by rw [hmodbus]; nofun)]
        exact hmodbus
      · show s.pub.StandsAt _
        rw [h.standing_pub_of_signals hsignals]
        split
        · rename_i hblocked
          rw [hblocked] at hpub
          rw [eq_waiting_of_blocked hpub]
          exact .inr rfl
        · exact hpub
  | connect success hat | publish success hat | sleepOver success hat =>
      rw [hat] at hpub
      refine ⟨hmodbus, ?_⟩
      cases success <;> exact hpub
  | _ => constructor <;> simp_all [ModbusAt.standing, PubAt.StandsAt]

/-! ## What is stored and what is taken -/

/-- The value a step stores. -/
def stored? (tr : Transition Handover Move) : Option Nat :=
  if tr.label = .store then some tr.target.sharedValue else none

/-- The value a step takes. -/
def taken? (tr : Transition Handover Move) : Option Nat :=
  if tr.label = .take then some tr.source.sharedValue else none

/-- The values a run stores, in order. -/
def stored (run : List (Transition Handover Move)) : List Nat := run.filterMap stored?

/-- The values a run takes, in order. -/
def taken (run : List (Transition Handover Move)) : List Nat := run.filterMap taken?

theorem filterMap_concat {α β : Type} (f : α → Option β) (l : List α) (a : α) :
    (l ++ [a]).filterMap f = l.filterMap f ++ (f a).toList := by
  rw [List.filterMap_append, List.filterMap_cons]
  cases f a <;> rfl

theorem stored_concat (run : List (Transition Handover Move)) (tr : Transition Handover Move) :
    stored (run ++ [tr]) = stored run ++ (stored? tr).toList :=
  filterMap_concat stored? run tr

theorem taken_concat (run : List (Transition Handover Move)) (tr : Transition Handover Move) :
    taken (run ++ [tr]) = taken run ++ (taken? tr).toList :=
  filterMap_concat taken? run tr

/-- A value is on its way to be taken: it is about to be signalled, or the publisher has
been woken for it. -/
def IsDue (s : Handover) : Prop :=
  s.modbus = .signalling ∨ s.monitor.standing .pub = .woken ∨ s.pub = .taking

/-- Only storing makes a value due. -/
theorem isDue_of_step {s s' : Handover} {move : Move} (hstep : Step s move s')
    (hstore : move ≠ .store) (hwake : move ≠ .wakeUp) (h : IsDue s') : IsDue s := by
  unfold IsDue at *
  cases hstep with
  | signal hat _ => exact .inl hat
  | store _ => exact absurd rfl hstore
  | wakeUp _ _ => exact absurd rfl hwake
  | reacquire _ hwoken _ => exact .inr (.inl hwoken)
  | connect success _ | publish success _ | sleepOver success _ => cases success <;> simp_all
  | _ => simp_all

/-- Taking a value leaves none due. -/
theorem not_isDue_of_take {s s' : Handover} (hstep : Step s .take s') (hloc : Located s) :
    ¬ IsDue s' := by
  cases hstep with
  | take hat =>
      have hpub := hloc.pub
      rw [hat] at hpub
      rintro (hsignalling | hwoken | htaking)
      · exact hloc.not_taking hsignalling hat
      · cases hpub.symm.trans hwoken
      · cases htaking

/-- What is taken is stored, in this order; and if a value is due, then it was stored
last, and not taken since. -/
structure InOrder (run : List (Transition Handover Move)) (s : Handover) : Prop where
  located : Located s
  sublist : (taken run).Sublist (stored run)
  due : IsDue s → ∃ earlier, stored run = earlier ++ [s.sharedValue] ∧ (taken run).Sublist earlier

theorem sharedValue_of_step {s s' : Handover} {move : Move} (hstep : Step s move s')
    (hstore : move ≠ .store) : s'.sharedValue = s.sharedValue := by
  cases hstep <;> first | rfl | exact absurd rfl hstore

theorem inOrder_step {run : List (Transition Handover Move)} {s s' : Handover} {move : Move}
    (hstep : Step s move s') (hwake : move ≠ .wakeUp) (h : InOrder run s) :
    InOrder (run ++ [⟨s, move, s'⟩]) s' := by
  have hlocated := located_step hstep h.located
  by_cases hstore : move = .store
  · subst hstore
    have hstored : stored (run ++ [⟨s, .store, s'⟩]) = stored run ++ [s'.sharedValue] :=
      stored_concat ..
    have htaken : taken (run ++ [⟨s, .store, s'⟩]) = taken run := by
      rw [taken_concat]
      exact List.append_nil _
    refine ⟨hlocated, ?_, fun _ => ⟨stored run, hstored, htaken ▸ h.sublist⟩⟩
    rw [hstored, htaken]
    exact h.sublist.trans (List.sublist_append_left _ _)
  · have hstored : stored (run ++ [⟨s, move, s'⟩]) = stored run := by
      rw [stored_concat, stored?, if_neg hstore]
      exact List.append_nil _
    by_cases htake : move = .take
    · subst htake
      have htaken : taken (run ++ [⟨s, .take, s'⟩]) = taken run ++ [s.sharedValue] :=
        taken_concat ..
      refine ⟨hlocated, ?_, fun hdue => absurd hdue (not_isDue_of_take hstep h.located)⟩
      have htaking : s.pub = .taking := by cases hstep with | take hat => exact hat
      obtain ⟨earlier, heq, hsublist⟩ := h.due (.inr (.inr htaking))
      rw [hstored, htaken, heq]
      exact hsublist.append (List.Sublist.refl _)
    · have htaken : taken (run ++ [⟨s, move, s'⟩]) = taken run := by
        rw [taken_concat, taken?, if_neg htake]
        exact List.append_nil _
      refine ⟨hlocated, ?_, fun hdue => ?_⟩
      · rw [hstored, htaken]
        exact h.sublist
      · rw [hstored, htaken, sharedValue_of_step hstep hstore]
        exact h.due (isDue_of_step hstep hstore hwake hdue)

/-- Without spurious wake-ups, the values taken for publication are a subsequence of the
values stored. -/
theorem taken_sublist_stored {run : List (Transition Handover Move)} {s : Handover}
    (hrun : Run Step start run s) (hwake : ∀ tr ∈ run, tr.label ≠ .wakeUp) :
    (taken run).Sublist (stored run) := by
  have hstart : InOrder [] start :=
    ⟨located_start, List.Sublist.refl _, by rintro (h | h | h) <;> cases h⟩
  refine (hrun.history InOrder hstart fun before tr after heq hstep h => ?_).sublist
  exact inOrder_step hstep (hwake tr (by simp [heq])) h

/-- The publisher is woken for 5, and gets the mutex only after 6 is stored. -/
theorem taken_sublist_stored_woken :
    ∃ run s, Run Step start run s ∧ stored run = [5, 6] ∧ taken run = [6] ∧
      (taken run).Sublist (stored run) := by
  obtain ⟨run, s, hrun, hstored, htaken, hwake⟩ : ∃ run s, Run Step start run s ∧
      stored run = [5, 6] ∧ taken run = [6] ∧ ∀ tr ∈ run, tr.label ≠ .wakeUp :=
    ⟨_, _, .cons (.connect true rfl) <| .cons (.pubLock rfl (by decide)) <| .cons (.block rfl) <|
      .cons (.read 5 rfl) <| .cons (.modbusLock rfl (by decide)) <| .cons (.store rfl) <|
      .cons (.signal rfl (.wakes .pub rfl)) <| .cons (.modbusUnlock rfl) <|
      .cons (.read 6 rfl) <| .cons (.modbusLock rfl (by decide)) <| .cons (.store rfl) <|
      .cons (.signal rfl (.lost (by decide))) <| .cons (.modbusUnlock rfl) <|
      .cons (.reacquire rfl rfl (by decide)) <| .cons (.take rfl) <| .nil _,
      by decide, by decide, by decide⟩
  exact ⟨run, s, hrun, hstored, htaken, taken_sublist_stored hrun hwake⟩

/-! ## Values that are overwritten -/

/-- What an observer of a run keeps in mind. -/
structure Observed where
  /-- The publisher was connected at the last read. -/
  readConnected : Bool
  /-- The value stored last, if it has not been taken since: whether the publisher was
  connected when it was read. -/
  untaken : Option Bool
  deriving DecidableEq, Repr

/-- Observe one step. -/
def Observed.next (o : Observed) (tr : Transition Handover Move) : Observed :=
  match tr.label with
  | .read _ => { o with readConnected := tr.source.pub.isConnected }
  | .store => { o with untaken := some o.readConnected }
  | .take => { o with untaken := none }
  | _ => o

/-- Observe a run. -/
def observed (run : List (Transition Handover Move)) : Observed :=
  run.foldl Observed.next ⟨false, none⟩

/-- No store overwrites a value that was read while the publisher was connected and has
not been taken. -/
def OverwritesNothing (run : List (Transition Handover Move)) : Prop :=
  ∀ before tr after, run = before ++ tr :: after → tr.label = .store →
    (observed before).untaken ≠ some true

/-- A value that was read while the publisher was connected is stored while it is
blocked in `pthread_cond_wait`. -/
def StoresFindBlocked (run : List (Transition Handover Move)) : Prop :=
  ∀ before tr after, run = before ++ tr :: after → tr.label = .store →
    (observed before).readConnected = true → tr.source.monitor.standing .pub = .blocked

/-- The publisher will take a value without another signal, except one that is about
to come. -/
def WillTake (s : Handover) : Prop :=
  s.pub = .taking ∨
    s.pub = .waiting ∧ (s.monitor.standing .pub = .woken ∨ s.modbus = .signalling)

theorem isConnected_of_willTake {s : Handover} (h : WillTake s) : s.pub.isConnected = true := by
  rcases h with htaking | ⟨hwaiting, _⟩
  · rw [htaking]
    rfl
  · rw [hwaiting]
    rfl

/-- Nothing but taking ends it. -/
theorem willTake_step {s s' : Handover} {move : Move} (hstep : Step s move s') (hloc : Located s)
    (htake : move ≠ .take) (h : WillTake s) : WillTake s' := by
  have hpub := hloc.pub
  unfold WillTake at *
  cases hstep with
  | take _ => exact absurd rfl htake
  | signal hat hsignals =>
      refine h.imp_right fun ⟨hwaiting, _⟩ => ⟨hwaiting, .inl ?_⟩
      rw [hwaiting] at hpub
      rw [hloc.standing_pub_of_signals hsignals]
      rcases hpub with hblocked | hwoken
      · rw [if_pos hblocked]
      · rw [hwoken]
        rfl
  | store _ => exact h.imp_right fun ⟨hwaiting, _⟩ => ⟨hwaiting, .inr rfl⟩
  | _ => simp_all

/-- `modbus_task` has read a value and not yet stored it. -/
def HasValue (s : Handover) : Prop := ∃ value, s.modbus = .locking value ∨ s.modbus = .storing value

theorem hasValue_of_step {s s' : Handover} {move : Move} (hstep : Step s move s')
    (hread : ∀ value, move ≠ .read value) (h : HasValue s') : HasValue s := by
  unfold HasValue at *
  cases hstep with
  | read value _ => exact absurd rfl (hread value)
  | _ => simp_all

theorem observed_concat (run : List (Transition Handover Move)) (tr : Transition Handover Move) :
    observed (run ++ [tr]) = (observed run).next tr :=
  List.foldl_append ..

/-- If a value of a connected publisher is not taken yet, then the publisher will take
it, and it was connected when `modbus_task` read the value it has now. -/
structure Accounted (o : Observed) (s : Handover) : Prop where
  located : Located s
  willTake : o.untaken = some true → WillTake s
  readConnected : o.untaken = some true → HasValue s → o.readConnected = true

theorem accounted_step {o : Observed} {s s' : Handover} {move : Move} (hstep : Step s move s')
    (h : Accounted o s)
    (hblocked : move = .store → o.readConnected = true → s.monitor.standing .pub = .blocked) :
    Accounted (o.next ⟨s, move, s'⟩) s' := by
  have hlocated := located_step hstep h.located
  cases move with
  | read value =>
      exact ⟨hlocated, fun huntaken => willTake_step hstep h.located nofun (h.willTake huntaken),
        fun huntaken _ => isConnected_of_willTake (h.willTake huntaken)⟩
  | take => exact ⟨hlocated, nofun, nofun⟩
  | store =>
      refine ⟨hlocated, fun huntaken => ?_, fun huntaken _ => Option.some.inj huntaken⟩
      -- the publisher is blocked, so it is in the wait that the signal will end
      have hpub := h.located.pub
      rw [hblocked rfl (Option.some.inj huntaken)] at hpub
      cases hstep with
      | store _ => exact .inr ⟨eq_waiting_of_blocked hpub, .inr rfl⟩
  | _ =>
      exact ⟨hlocated, fun huntaken => willTake_step hstep h.located nofun (h.willTake huntaken),
        fun huntaken hvalue => h.readConnected huntaken (hasValue_of_step hstep nofun hvalue)⟩

/-- At a store that finds the publisher blocked if it must, nothing is overwritten. -/
theorem untaken_of_store {o : Observed} {s s' : Handover} (hstep : Step s .store s')
    (h : Accounted o s)
    (hblocked : o.readConnected = true → s.monitor.standing .pub = .blocked) :
    o.untaken ≠ some true := by
  intro huntaken
  cases hstep with
  | store hat =>
      have hstanding := hblocked (h.readConnected huntaken ⟨_, .inr hat⟩)
      have hpub := h.located.pub
      rcases h.willTake huntaken with htaking | ⟨_, hwoken | hsignalling⟩
      · rw [htaking, hstanding] at hpub
        cases hpub
      · cases hwoken.symm.trans hstanding
      · cases hat.symm.trans hsignalling

/-- In a run in which every value read for a connected publisher is stored while it is
blocked, every such value is taken before the next one is stored. -/
theorem overwritesNothing_of_storesFindBlocked {run : List (Transition Handover Move)}
    {s : Handover} (hrun : Run Step start run s) (hblocked : StoresFindBlocked run) :
    OverwritesNothing run := by
  rintro before tr after rfl hstore
  obtain ⟨hbefore, hstep, _⟩ := hrun.split
  have hstart : Accounted (observed []) start := ⟨located_start, nofun, nofun⟩
  have haccounted := hbefore.history (fun run s => Accounted (observed run) s) hstart
    fun earlier tr' later heq hstep' h => by
      rw [observed_concat]
      exact accounted_step hstep' h fun hlabel =>
        hblocked earlier tr' (later ++ tr :: after) (by simp [heq]) hlabel
  rw [hstore] at hstep
  exact untaken_of_store hstep haccounted (hblocked before tr after rfl hstore)

/-- The publisher waits, and 5 is handed over; it waits again, and 6 is stored. -/
theorem overwritesNothing_waiting :
    ∃ run s, Run Step start run s ∧ stored run = [5, 6] ∧ OverwritesNothing run := by
  obtain ⟨run, s, hrun, hstored, hblocked⟩ : ∃ run s, Run Step start run s ∧ stored run = [5, 6] ∧
      ∀ tr ∈ run, tr.label = .store → tr.source.monitor.standing .pub = .blocked :=
    ⟨_, _, .cons (.connect true rfl) <| .cons (.pubLock rfl (by decide)) <| .cons (.block rfl) <|
      .cons (.read 5 rfl) <| .cons (.modbusLock rfl (by decide)) <| .cons (.store rfl) <|
      .cons (.signal rfl (.wakes .pub rfl)) <| .cons (.modbusUnlock rfl) <|
      .cons (.reacquire rfl rfl (by decide)) <| .cons (.take rfl) <| .cons (.pubUnlock rfl) <|
      .cons (.publish true rfl) <| .cons (.sleepOver true rfl) <|
      .cons (.pubLock rfl (by decide)) <| .cons (.block rfl) <| .cons (.read 6 rfl) <|
      .cons (.modbusLock rfl (by decide)) <| .cons (.store rfl) <| .nil _, by decide, by decide⟩
  refine ⟨run, s, hrun, hstored, overwritesNothing_of_storesFindBlocked hrun ?_⟩
  rintro before tr after rfl hstore _
  exact hblocked tr (by simp) hstore

/-- The publisher has taken 5, and 6 is stored while it sleeps.  The signal is lost, the
publisher waits, and 7 is stored. -/
theorem not_overwritesNothing_sleeping :
    ∃ run s, Run Step start run s ∧ stored run = [5, 6, 7] ∧ taken run = [5] ∧
      ¬ OverwritesNothing run := by
  obtain ⟨run, s, hrun, hstored, htaken, huntaken, hat⟩ : ∃ run s, Run Step start run s ∧
      stored run = [5, 6] ∧ taken run = [5] ∧ (observed run).untaken = some true ∧
        s.modbus = .storing 7 :=
    ⟨_, _, .cons (.connect true rfl) <| .cons (.pubLock rfl (by decide)) <| .cons (.block rfl) <|
      .cons (.read 5 rfl) <| .cons (.modbusLock rfl (by decide)) <| .cons (.store rfl) <|
      .cons (.signal rfl (.wakes .pub rfl)) <| .cons (.modbusUnlock rfl) <|
      .cons (.reacquire rfl rfl (by decide)) <| .cons (.take rfl) <| .cons (.pubUnlock rfl) <|
      .cons (.publish true rfl) <| .cons (.read 6 rfl) <| .cons (.modbusLock rfl (by decide)) <|
      .cons (.store rfl) <| .cons (.signal rfl (.lost (by decide))) <| .cons (.modbusUnlock rfl) <|
      .cons (.sleepOver true rfl) <| .cons (.pubLock rfl (by decide)) <| .cons (.block rfl) <|
      .cons (.read 7 rfl) <| .cons (.modbusLock rfl (by decide)) <| .nil _,
      by decide, by decide, by decide, rfl⟩
  refine ⟨_, _, hrun.append (.single (.store hat)), ?_, ?_, fun h => ?_⟩
  · rw [stored_concat, hstored]
    rfl
  · rw [taken_concat, htaken]
    rfl
  · exact h run _ [] rfl rfl huntaken

end Handover

end MqttClient
