import NPSync.Library.FixedWindow
import NPSync.Library.Table
import NPSync.Text

/-! `loginLimiter` of `api/ratelimit.go`: a table of fixed windows. Times are
nanoseconds of the monotonic clock, and the mutex puts the calls and the passes of the
collector in an order. -/
namespace NPSync.Server
open Library Library.FixedWindow

structure LoginLimiter where
  limit : Nat
  window : Nat
  buckets : Table Str Bucket

/-- `time.Minute`. -/
def minute : Nat := 60 * 10^9

def newLoginLimiter (perMinute : Int) : LoginLimiter :=
  ⟨if perMinute ≤ 0 then 10 else perMinute.toNat,minute,Table.empty⟩

namespace LoginLimiter

/-- The clock is read once, under the mutex. -/
def Allow (l : LoginLimiter) (key : Str) (now : Nat) : Bool × LoginLimiter :=
  match l.buckets.get key with
  | none => (true,{l with buckets := l.buckets.upsert key ⟨1,now + l.window⟩})
  | some b =>
    if b.resetAt < now then (true,{l with buckets := l.buckets.upsert key ⟨1,now + l.window⟩})
    else if l.limit ≤ b.count then (false,l)
    else (true,{l with buckets := l.buckets.upsert key {b with count := b.count + 1}})

/-- One round of the collector's loop, with the clock it reads. -/
def collect (l : LoginLimiter) (k : Str) (now : Nat) : LoginLimiter :=
  match l.buckets.get k with
  | some b => if b.resetAt < now then {l with buckets := l.buckets.remove k} else l
  | none => l

/-- A pass past the keys in the order of the map. -/
def gc (l : LoginLimiter) (pass : List (Str × Nat)) : LoginLimiter := pass.foldl (fun l round => l.collect round.1 round.2) l

end LoginLimiter

inductive LimiterEvent where
  | allow (key : Str) (now : Nat)
  | gc (pass : List (Str × Nat))

namespace LimiterEvent

/-- The clock readings, in order. -/
def clocks : LimiterEvent → List Nat
  | .allow _ now => [now]
  | .gc pass => pass.map Prod.snd

def isAllow : LimiterEvent → Bool
  | .allow _ _ => true
  | .gc _ => false

def isFor (key : Str) : LimiterEvent → Bool
  | .allow other _ => other = key
  | .gc _ => false

/-- The event on the windows. -/
def onWindows : LimiterEvent → List (Event Str)
  | .allow key now => [.attempt key now]
  | .gc pass => pass.map fun round => .collect round.1 round.2

end LimiterEvent

/-- The calls of a run with their answers; a call opens a window when it stores a new
bucket. -/
def respond : LoginLimiter → List LimiterEvent → List (Answer Str)
  | _,[] => []
  | l,.allow key now::rest => ⟨⟨now,(l.Allow key now).1,opens now (l.buckets.get key)⟩,key⟩::respond (l.Allow key now).2 rest
  | l,.gc pass::rest => respond (l.gc pass) rest

/-- The clock does not go back. -/
def Monotonic (events : List LimiterEvent) : Prop := (events.flatMap LimiterEvent.clocks).Pairwise (· ≤ ·)

/-! ### Windows -/

theorem Allow_windows (l : LoginLimiter) (key : Str) (now : Nat) :
    (l.Allow key now).1 = admits l.limit now (l.buckets.get key) ∧ (l.Allow key now).2.limit = l.limit ∧
      (l.Allow key now).2.window = l.window ∧
      (l.Allow key now).2.buckets.get = step l.limit l.window l.buckets.get (.attempt key now) := by
  have upserted : ∀ b : Bucket, (l.buckets.upsert key b).get = Function.update l.buckets.get key (some b) := by
    intro b
    funext other
    rw [Table.get_upsert,Function.update_apply]
  have counted : step l.limit l.window l.buckets.get (.attempt key now) =
      Function.update l.buckets.get key (count l.limit l.window now (l.buckets.get key)) := rfl
  rw [counted]
  unfold LoginLimiter.Allow
  cases found : l.buckets.get key with
  | none => exact ⟨rfl,rfl,rfl,upserted _⟩
  | some b =>
    by_cases past : b.resetAt < now
    · simp only [past,if_true,admits,count,Option.all_some,decide_true,Bool.true_or,true_and]
      exact upserted _
    · by_cases full : l.limit ≤ b.count
      · have same : Function.update l.buckets.get key (some b) = l.buckets.get := by
          rw [← found,Function.update_eq_self]
        simp [past,full,admits,count,Nat.not_lt.mpr full,same]
      · simp only [past,full,if_false,admits,count,Option.all_some,Nat.lt_of_not_le full,decide_true,Bool.or_true,true_and,if_true]
        exact upserted _

theorem collect_windows (l : LoginLimiter) (k : Str) (now : Nat) :
    (l.collect k now).limit = l.limit ∧ (l.collect k now).window = l.window ∧
      (l.collect k now).buckets.get = step l.limit l.window l.buckets.get (.collect k now) := by
  have dropped : step l.limit l.window l.buckets.get (.collect k now) =
      Function.update l.buckets.get k (FixedWindow.live now (l.buckets.get k)) := rfl
  rw [dropped]
  unfold LoginLimiter.collect
  cases found : l.buckets.get k with
  | none =>
    refine ⟨rfl,rfl,?_⟩
    have same : FixedWindow.live now none = l.buckets.get k := found.symm
    rw [same,Function.update_eq_self]
  | some b =>
    by_cases past : b.resetAt < now
    · simp only [past,if_true,true_and]
      have gone : FixedWindow.live now (some b) = none := by simp [FixedWindow.live,Option.filter,Nat.not_le.mpr past]
      rw [gone]
      funext other
      rw [Table.get_remove,Function.update_apply]
    · simp only [past,if_false,true_and]
      have kept : FixedWindow.live now (some b) = l.buckets.get k := by
        rw [found]
        simp [FixedWindow.live,Option.filter,Nat.le_of_not_lt past]
      rw [kept,Function.update_eq_self]

/-- The answers of the table are those of the windows. -/
theorem respond_windows (events : List LimiterEvent) (l : LoginLimiter) :
    respond l events = answers l.limit l.window l.buckets.get (events.flatMap LimiterEvent.onWindows) := by
  induction events generalizing l with
  | nil => rfl
  | cons event rest ih =>
    cases event with
    | allow key now =>
      obtain ⟨allowed,limit,window,buckets⟩ := Allow_windows l key now
      rw [respond,ih,allowed,limit,window,buckets]
      rfl
    | gc pass =>
      have passed : ∀ (pass : List (Str × Nat)) (l : LoginLimiter),
          answers (l.gc pass).limit (l.gc pass).window (l.gc pass).buckets.get (rest.flatMap LimiterEvent.onWindows) =
            answers l.limit l.window l.buckets.get
              (pass.map (fun round => .collect round.1 round.2) ++ rest.flatMap LimiterEvent.onWindows) := by
        intro pass
        induction pass with
        | nil => exact fun l => rfl
        | cons round pass ih =>
          intro l
          obtain ⟨limit,window,buckets⟩ := collect_windows l round.1 round.2
          have later := ih (l.collect round.1 round.2)
          rw [limit,window,buckets] at later
          exact later
      rw [respond,ih]
      exact passed pass l

theorem ordered_windows {events : List LimiterEvent} (monotonic : Monotonic events) :
    Ordered (events.flatMap LimiterEvent.onWindows) := by
  have clocks : ∀ event : LimiterEvent, event.onWindows.map Event.now = event.clocks := by
    intro event
    cases event with
    | allow key now => rfl
    | gc pass => exact List.map_map
  unfold Ordered
  rw [List.map_flatMap]
  simp only [clocks]
  exact monotonic

/-- Calls that are left out are left out of the windows. -/
theorem filter_onWindows {keep : LimiterEvent → Bool} {own : Event Str → Bool}
    (calls : ∀ key now, own (.attempt key now) = keep (.allow key now)) (passes : ∀ pass, keep (.gc pass) = false)
    (rounds : ∀ key now, own (.collect key now) = false) (events : List LimiterEvent) :
    (events.flatMap LimiterEvent.onWindows).filter own = (events.filter keep).flatMap LimiterEvent.onWindows := by
  induction events with
  | nil => rfl
  | cons event rest ih =>
    rw [List.flatMap_cons,List.filter_append,ih]
    cases event with
    | allow key now =>
      have call := calls key now
      cases kept : keep (.allow key now) with
      | true =>
        rw [kept] at call
        rw [List.filter_cons_of_pos kept,List.flatMap_cons,LimiterEvent.onWindows,List.filter_cons_of_pos call]
        rfl
      | false =>
        rw [kept] at call
        rw [List.filter_cons_of_neg (by simp [kept]),LimiterEvent.onWindows,List.filter_cons_of_neg (by simp [call])]
        rfl
    | gc pass =>
      have none : (LimiterEvent.gc pass).onWindows.filter own = [] := by
        apply List.filter_eq_nil_iff.mpr
        intro event member
        obtain ⟨round,-,rfl⟩ := List.mem_map.mp member
        simp [rounds]
      rw [none,List.filter_cons_of_neg (by simp [passes]),List.nil_append]

/-! ### The bound -/

theorem newLoginLimiter_limit (perMinute : Int) : 1 ≤ (newLoginLimiter perMinute).limit := by
  unfold newLoginLimiter
  split
  · decide
  · simp only
    omega

/-- What a run of a new limiter lets through. -/
structure RateLimited (l : LoginLimiter) (limit : Nat) (events : List LimiterEvent) : Prop where
  collected : respond l events = respond l (events.filter LimiterEvent.isAllow)
  window : ∀ a ∈ respond l events, a.opened = true →
    (respond l events).countP (admitted a.key a.now (a.now + minute)) ≤ limit
  interval : ∀ key first, (respond l events).countP (admitted key first (first + minute)) ≤ 2 * limit
  foreign : ∀ key : Str, (respond l events).filter (fun a => a.key = key) = respond l (events.filter (LimiterEvent.isFor key))

/-- The limiter keeps its limit in every run: the collector and the calls for other
keys change no answer, a window lets no more through than the limit, and an interval of
a minute no more than twice the limit. -/
theorem limiter_bounds (limit : Nat) (positive : 1 ≤ limit) (events : List LimiterEvent) (monotonic : Monotonic events) :
    RateLimited (newLoginLimiter limit) limit events := by
  have own : (newLoginLimiter limit).limit = limit := by
    unfold newLoginLimiter
    rw [if_neg (by omega)]
    rfl
  have ordered := ordered_windows monotonic
  have windows : ∀ events, respond (newLoginLimiter limit) events =
      answers limit minute (newLoginLimiter limit).buckets.get (events.flatMap LimiterEvent.onWindows) := by
    intro events
    rw [respond_windows,own]
    rfl
  constructor
  case collected =>
    rw [windows,windows,answers_collect limit minute ordered]
    apply congrArg
    apply filter_onWindows
    case calls => exact fun key now => rfl
    case passes => exact fun pass => rfl
    case rounds => exact fun key now => rfl
  case window =>
    intro a member opened
    rw [windows] at member ⊢
    exact answers_window limit minute positive ordered _ member opened
  case interval =>
    intro key first
    rw [windows]
    exact answers_interval limit minute positive ordered _ key first
  case foreign =>
    intro key
    rw [windows,windows,answers_foreign limit minute key ordered]
    apply congrArg
    apply filter_onWindows
    case calls => exact fun other now => Bool.true_and _
    case passes => exact fun pass => rfl
    case rounds => exact fun other now => rfl

/-- Two calls for one key, a pass of the collector and a call a minute later. -/
theorem limiter_bounds_run : RateLimited (newLoginLimiter 1) 1
    [.allow (lit "k") 0,.allow (lit "k") 5,.gc [(lit "k",minute + 1)],.allow (lit "k") (minute + 2)] :=
  limiter_bounds 1 (Nat.le_refl 1) _ (by unfold Monotonic; decide)

end NPSync.Server
