import Nrpd.Cache.MruCache
import Nrpd.Lib.PeriodicTask

/-!
# Cleaner threads

`ScheduleCleaning` starts a detached thread that runs `Clean`: the loop over the entries under the
lock, and behind it the assignment of `m_lastCleanTime`. Other threads call the cache meanwhile.
Here the two parts of `Clean`, the locked parts of the calls and their calls of `ScheduleCleaning`
are steps of their own, in any order. A cleaner is outstanding from the comparison that starts it
until it has written `m_lastCleanTime`.

As `m_lastCleanTime` is written at the end, a call that gets to `ScheduleCleaning` while a cleaner
is outstanding starts another one, and the two may complete together.

## Main definitions

* `MruCache.cleanLocked`, `MruCache.setLastCleanTime`: the two parts of `Clean`.
* `CacheThreads`, `CacheCall.run`: the cache with the threads at work on it, and their steps.
* `CacheCall.AwaitsCleaner`: no cleaner is outstanding when `ScheduleCleaning` is called.
* `CacheThreads.task`: the cleanings as a task that is repeated after an interval.

## Main results

* `MruCache.clean_eq`, `CacheCall.after_isPresentAdd`, `CacheCall.after_isPresent`: the parts make
  up the operations.
* `CacheCall.task_of_run`: what a step of the threads is for the task.
* `CacheThreads.awaiting_of_reachable`: every run that awaits its cleaners.
* `cleanings_apart`: one cleaner at a time, and completions an interval apart.
-/

namespace Nrpd

open Runs SteadyClock

variable {Key : Type*} [BEq Key]

namespace MruCache

theorem cleanLocked_sublist (c : MruCache Key) (clock : SteadyClock) :
    (cleanEntries (seconds c.lifetimeSeconds) c.recentClients.entries clock).1.Sublist
      c.recentClients.entries :=
  cleanEntries_sublist _ _ _

/-- `Clean`, up to the end of its lock. -/
def cleanLocked (c : MruCache Key) (clock : SteadyClock) : MruCache Key × SteadyClock :=
  let items := cleanEntries (seconds c.lifetimeSeconds) c.recentClients.entries clock
  ({ c with recentClients := c.recentClients.keep items.1 (c.cleanLocked_sublist clock) }, items.2)

/-- The last statement of `Clean`. -/
def setLastCleanTime (c : MruCache Key) (clock : SteadyClock) : MruCache Key × SteadyClock :=
  ({ c with lastCleanTime := clock.now }, clock.tick)

/-- A cleaner that nothing falls between is `Clean`. -/
theorem clean_eq (c : MruCache Key) (clock : SteadyClock) :
    c.clean clock = (c.cleanLocked clock).1.setLastCleanTime (c.cleanLocked clock).2 := rfl

theorem laterThan_cleanLocked (c : MruCache Key) (clock : SteadyClock) :
    clock.LaterThan (c.cleanLocked clock).2 :=
  laterThan_cleanEntries _ _ clock

end MruCache

/-- How far a cleaner is: it was started, or it has left the lock. -/
inductive CleanerStage where
  | started
  | cleaned
deriving DecidableEq

/-- The cache with the threads at work on it: how many calls have left the lock and come to
`ScheduleCleaning`, the cleaners, and the times at which cleanings were completed, the latest
first. -/
structure CacheThreads (Key : Type*) [BEq Key] where
  cache : MruCache Key
  clock : SteadyClock
  scheduling : ℕ
  cleaners : List CleanerStage
  completed : List ℤ

/-- The steps of the threads. A cleaner is named by its place. -/
inductive CacheCall (Key : Type*) where
  | isPresentAdd (addr : Key)
  | isPresent (addr : Key)
  | add (addr : Key)
  | scheduleCleaning
  | cleanLocked (i : ℕ)
  | setLastCleanTime (i : ℕ)

namespace CacheThreads

/-- The threads behind the constructor of the cache. -/
def start (lifetimeSeconds : ℤ) (clock : SteadyClock) : CacheThreads Key :=
  let constructed := MruCache.new lifetimeSeconds clock
  ⟨constructed.1, constructed.2, 0, [], []⟩

/-- A new cache with a steady clock. -/
def IsFirst (s : CacheThreads Key) : Prop :=
  ∃ lifetimeSeconds clock, clock.Steady ∧ s = start lifetimeSeconds clock

/-- The cleanings, as a task that runs once for each outstanding cleaner. -/
def task (s : CacheThreads Key) : PeriodicTask :=
  ⟨seconds s.cache.cleanIntervalSeconds, s.cache.lastCleanTime, s.clock.now, s.cleaners.length,
    s.completed⟩

end CacheThreads

namespace CacheCall

/-- The threads behind a step, if it can be made. -/
def run (s : CacheThreads Key) : CacheCall Key → Option (CacheThreads Key)
  | isPresentAdd addr =>
    let locked := s.cache.isPresentAddLocked addr s.clock
    some { s with cache := locked.2.1, clock := locked.2.2, scheduling := s.scheduling + 1 }
  | isPresent addr =>
    let locked := s.cache.isPresentLocked addr s.clock
    some { s with clock := locked.2, scheduling := s.scheduling + 1 }
  | add addr =>
    let added := s.cache.add addr s.clock
    some { s with cache := added.1, clock := added.2 }
  | scheduleCleaning =>
    match s.scheduling with
    | 0 => none
    | n + 1 =>
      let scheduled := s.cache.scheduleCleaning s.clock
      some { s with
        clock := scheduled.2
        scheduling := n
        cleaners := if scheduled.1 then s.cleaners ++ [.started] else s.cleaners }
  | cleanLocked i =>
    if s.cleaners[i]? = some .started then
      let cleaned := s.cache.cleanLocked s.clock
      some { s with
        cache := cleaned.1
        clock := cleaned.2
        cleaners := s.cleaners.set i .cleaned }
    else none
  | setLastCleanTime i =>
    if s.cleaners[i]? = some .cleaned then
      let written := s.cache.setLastCleanTime s.clock
      some { s with
        cache := written.1
        clock := written.2
        cleaners := s.cleaners.eraseIdx i
        completed := s.clock.now :: s.completed }
    else none

/-- A call gets to `ScheduleCleaning` only when no cleaner is outstanding. -/
def AwaitsCleaner (s : CacheThreads Key) : CacheCall Key → Prop
  | scheduleCleaning => s.cleaners = []
  | _ => True

variable {s s' : CacheThreads Key} {a : CacheCall Key}

/-! ### The calls as a whole -/

section Calls

variable (s : CacheThreads Key) (addr : Key)

/-- The threads when a call returns. -/
def returned (reply : CacheReply Key) : CacheThreads Key :=
  { s with
    cache := reply.cache
    clock := reply.clock
    cleaners := if reply.startsCleaner then s.cleaners ++ [.started] else s.cleaners }

/-- The two parts of `IsPresentAdd`, with nothing between them. -/
theorem after_isPresentAdd :
    Runs.after run [isPresentAdd addr, scheduleCleaning] s =
      some (returned s (s.cache.isPresentAdd addr s.clock)) := rfl

/-- The two parts of `IsPresent`, with nothing between them. -/
theorem after_isPresent :
    Runs.after run [isPresent addr, scheduleCleaning] s =
      some (returned s (s.cache.isPresent addr s.clock)) := rfl

end Calls

/-! ### What a step is for the task -/

theorem scheduleCleaning_iff :
    (s.cache.scheduleCleaning s.clock).1 = true ↔ s.task.last + s.task.interval ≤ s.task.now :=
  decide_eq_true_iff

/-- `ScheduleCleaning`. -/
theorem scheduleCleaning_cases (h : scheduleCleaning.run s = some s') :
    ∃ n, s.scheduling = n + 1 ∧
      s' = { s with
        clock := s.clock.tick
        scheduling := n
        cleaners :=
          if s.task.last + s.task.interval ≤ s.task.now then s.cleaners ++ [.started]
          else s.cleaners } := by
  cases hscheduling : s.scheduling with
  | zero => simp [run, hscheduling] at h
  | succ n =>
    rw [run, hscheduling] at h
    obtain rfl := Option.some.inj h
    refine ⟨n, rfl, ?_⟩
    by_cases hdue : s.task.last + s.task.interval ≤ s.task.now
    · rw [if_pos hdue, if_pos (scheduleCleaning_iff.2 hdue)]
      rfl
    · rw [if_neg hdue, if_neg (mt scheduleCleaning_iff.1 hdue)]
      rfl

theorem laterThan_run (h : a.run s = some s') : s.clock.LaterThan s'.clock := by
  cases a with
  | isPresentAdd addr =>
    obtain rfl := Option.some.inj h
    exact s.cache.laterThan_isPresentAddLocked addr s.clock
  | isPresent addr =>
    obtain rfl := Option.some.inj h
    exact s.cache.laterThan_isPresentLocked addr s.clock
  | add addr =>
    obtain rfl := Option.some.inj h
    exact .tick s.clock
  | scheduleCleaning =>
    obtain ⟨n, -, rfl⟩ := scheduleCleaning_cases h
    exact .tick s.clock
  | cleanLocked i =>
    obtain ⟨-, heq⟩ := Option.ite_none_right_eq_some.1 h
    obtain rfl := Option.some.inj heq
    exact s.cache.laterThan_cleanLocked s.clock
  | setLastCleanTime i =>
    obtain ⟨-, heq⟩ := Option.ite_none_right_eq_some.1 h
    obtain rfl := Option.some.inj heq
    exact .tick s.clock

/-- **One step of the threads.** Time passes for the task; besides, `ScheduleCleaning` may start it,
and the last statement of a cleaner completes it. -/
theorem task_of_run (h : a.run s = some s') :
    s'.task = { s.task with now := s'.clock.now } ∨
    (a = scheduleCleaning ∧ s.task.last + s.task.interval ≤ s.task.now ∧
      s'.task = { s.task with running := s.task.running + 1, now := s'.clock.now }) ∨
    ∃ n, s.task.running = n + 1 ∧
      s'.task = { s.task with
        running := n
        last := s.task.now
        completed := s.task.now :: s.task.completed
        now := s'.clock.now } := by
  cases a with
  | isPresentAdd addr =>
    obtain ⟨m, hm⟩ := s.cache.exists_recentClients addr s.clock
    obtain rfl := Option.some.inj h
    refine .inl ?_
    rw [CacheThreads.task, hm]
    rfl
  | isPresent addr =>
    obtain rfl := Option.some.inj h
    exact .inl rfl
  | add addr =>
    obtain rfl := Option.some.inj h
    exact .inl rfl
  | scheduleCleaning =>
    obtain ⟨n, -, rfl⟩ := scheduleCleaning_cases h
    by_cases hdue : s.task.last + s.task.interval ≤ s.task.now
    · refine .inr (.inl ⟨rfl, hdue, ?_⟩)
      simp only [if_pos hdue]
      simp [CacheThreads.task]
    · refine .inl ?_
      simp only [if_neg hdue]
      rfl
  | cleanLocked i =>
    obtain ⟨-, heq⟩ := Option.ite_none_right_eq_some.1 h
    obtain rfl := Option.some.inj heq
    refine .inl ?_
    rw [CacheThreads.task, CacheThreads.task, List.length_set]
    rfl
  | setLastCleanTime i =>
    obtain ⟨hstage, heq⟩ := Option.ite_none_right_eq_some.1 h
    obtain rfl := Option.some.inj heq
    obtain ⟨hi, -⟩ := List.getElem?_eq_some_iff.1 hstage
    have hlength : (s.cleaners.eraseIdx i).length + 1 = s.cleaners.length :=
      List.length_eraseIdx_add_one hi
    exact .inr (.inr ⟨_, hlength.symm, rfl⟩)

end CacheCall

namespace CacheThreads

open CacheCall

variable {s s' : CacheThreads Key} {a : CacheCall Key}

/-- Threads with a steady clock whose cleanings are a run of a task that is not started while it
runs. -/
def Awaiting (s : CacheThreads Key) : Prop :=
  s.clock.Steady ∧ Reachable PeriodicTask.Idle PeriodicTask.step PeriodicTask.StartsAlone s.task

theorem IsFirst.awaiting (h : s.IsFirst) : s.Awaiting := by
  obtain ⟨lifetimeSeconds, clock, hsteady, rfl⟩ := h
  exact ⟨hsteady.of_laterThan (.tick clock),
    .first ⟨rfl, hsteady.now_le (.tick clock), rfl⟩⟩

/-- **One step.** -/
theorem Awaiting.run (hs : s.Awaiting) (hawaits : a.AwaitsCleaner s) (h : a.run s = some s') :
    s'.Awaiting := by
  obtain ⟨hsteady, htask⟩ := hs
  have hlater := laterThan_run h
  have hnow : s.task.now ≤ s'.clock.now := hsteady.now_le hlater
  refine ⟨hsteady.of_laterThan hlater, ?_⟩
  rcases task_of_run h with heq | ⟨rfl, hdue, heq⟩ | ⟨n, hn, heq⟩
  · rw [heq]
    exact PeriodicTask.reachable_wait htask hnow
  · have hidle : s.task.running = 0 := List.length_eq_zero_iff.2 hawaits
    rw [heq]
    exact PeriodicTask.reachable_wait (PeriodicTask.reachable_start htask hidle hdue) hnow
  · rw [heq]
    exact PeriodicTask.reachable_wait (PeriodicTask.reachable_finish htask hn) hnow

/-- **Every run** whose calls get to `ScheduleCleaning` only when no cleaner is outstanding. -/
theorem awaiting_of_reachable (h : Reachable IsFirst CacheCall.run AwaitsCleaner s) :
    s.Awaiting :=
  h.invariant (fun _ => IsFirst.awaiting) fun _ _ _ hs hawaits hrun => hs.run hawaits hrun

/-- A step leaves at most one cleaner just when it awaits the one that is outstanding: a cleaner
that is outstanding has not yet moved the time by which `ScheduleCleaning` decides. -/
theorem Awaiting.length_le_one_iff (hs : s.Awaiting) (h : a.run s = some s') :
    s'.cleaners.length ≤ 1 ↔ a.AwaitsCleaner s := by
  constructor
  · intro hone
    cases a with
    | scheduleCleaning =>
      by_contra hne
      have hdue : s.task.last + s.task.interval ≤ s.task.now :=
        (PeriodicTask.spaced_of_reachable hs.2).overdue fun hzero =>
          hne (List.length_eq_zero_iff.1 hzero)
      obtain ⟨n, -, rfl⟩ := scheduleCleaning_cases h
      have hpos := List.length_pos_iff.2 hne
      simp only [if_pos hdue, List.length_append, List.length_singleton] at hone
      omega
    | _ => trivial
  · intro hawaits
    exact (PeriodicTask.spaced_of_reachable (hs.run hawaits h).2).alone

end CacheThreads

open CacheCall CacheThreads

/-- **One cleaner at a time.** In every run whose calls get to `ScheduleCleaning` only when no
cleaner is outstanding, at most one cleaner is outstanding and cleanings complete an interval apart;
a call that gets there earlier starts a second cleaner. -/
theorem cleanings_apart {s : CacheThreads Key} (h : Reachable IsFirst run AwaitsCleaner s) :
    s.cleaners.length ≤ 1 ∧
    (s.completed.Pairwise fun later earlier =>
      earlier + seconds s.cache.cleanIntervalSeconds ≤ later) ∧
    ∀ (a : CacheCall Key) s', a.run s = some s' → (s'.cleaners.length ≤ 1 ↔ a.AwaitsCleaner s) := by
  have hs := awaiting_of_reachable h
  have hspaced := PeriodicTask.spaced_of_reachable hs.2
  exact ⟨hspaced.alone, hspaced.spaced, fun _ _ hrun => hs.length_le_one_iff hrun⟩

/-- A clock that shows another minute with every reading. -/
def minuteClock : SteadyClock := ⟨fun n => seconds (60 * n), 0⟩

/-- Two cleanings, two minutes apart. -/
theorem cleanings_apart_example :
    ∃ s : CacheThreads ℕ, Runs.after run [.isPresent 7, .scheduleCleaning, .cleanLocked 0,
        .setLastCleanTime 0, .isPresent 7, .scheduleCleaning, .cleanLocked 0,
        .setLastCleanTime 0] (start 60 minuteClock) = some s ∧
      s.completed = [seconds 240, seconds 120] ∧
      s.completed.Pairwise fun later earlier =>
        earlier + seconds s.cache.cleanIntervalSeconds ≤ later := by
  have hsteady : minuteClock.Steady := fun i j hij => by
    simp only [minuteClock, seconds]
    omega
  have hfirst : IsFirst (start 60 minuteClock : CacheThreads ℕ) := ⟨60, minuteClock, hsteady, rfl⟩
  refine ⟨_, rfl, rfl, (cleanings_apart ?_).2.1⟩
  refine .call (.call (.call (.call (.call (.call (.call (.call (.first hfirst)
    (a := .isPresent 7) trivial rfl) (a := .scheduleCleaning) rfl rfl)
    (a := .cleanLocked 0) trivial rfl) (a := .setLastCleanTime 0) trivial rfl)
    (a := .isPresent 7) trivial rfl) (a := .scheduleCleaning) rfl rfl)
    (a := .cleanLocked 0) trivial rfl) (a := .setLastCleanTime 0) trivial rfl

/-- A clock that shows a minute behind its first reading, and another nanosecond with every
reading. -/
def nanosecondClock : SteadyClock := ⟨fun n => if n = 0 then 0 else seconds 60 + n, 0⟩

/-- Two calls behind the first minute, and then the two cleaners that they start. -/
theorem cleaners_overlap :
    (start 60 nanosecondClock : CacheThreads ℕ).IsFirst ∧
    ∃ s t : CacheThreads ℕ,
      Runs.after run [.isPresentAdd 7, .scheduleCleaning, .isPresentAdd 7, .scheduleCleaning]
        (start 60 nanosecondClock) = some s ∧ s.cleaners.length = 2 ∧
      Runs.after run [.cleanLocked 0, .setLastCleanTime 0, .cleanLocked 0, .setLastCleanTime 0] s =
        some t ∧ t.completed = [seconds 60 + 9, seconds 60 + 7] ∧
      ¬ t.completed.Pairwise fun later earlier =>
        earlier + seconds t.cache.cleanIntervalSeconds ≤ later := by
  have hsteady : nanosecondClock.Steady := fun i j hij => by
    simp only [nanosecondClock, seconds]
    split_ifs <;> omega
  exact ⟨⟨60, nanosecondClock, hsteady, rfl⟩, _, _, rfl, rfl, rfl, rfl, by decide⟩

end Nrpd
