import Mathlib.Data.List.Basic
import Mathlib.Logic.Function.Basic

/-! Counters past fixed windows, one for each key. A window is opened by the first
attempt after the end of the last one and counts the attempts it lets through; a
counter whose window is over may be dropped at any time. -/
namespace NPSync.Library.FixedWindow

structure Bucket where
  count : Nat
  resetAt : Nat
  deriving DecidableEq

/-- An attempt opens a window: there is none, or it is past. -/
def opens (now : Nat) (bucket : Option Bucket) : Bool := bucket.all fun b => b.resetAt < now

section
variable (limit window : Nat)

def admits (now : Nat) (bucket : Option Bucket) : Bool := bucket.all fun b => b.resetAt < now || b.count < limit

/-- The counter after an attempt. -/
def count (now : Nat) (bucket : Option Bucket) : Option Bucket :=
  match bucket with
  | none => some ⟨1,now + window⟩
  | some b =>
    if b.resetAt < now then some ⟨1,now + window⟩
    else if b.count < limit then some ⟨b.count + 1,b.resetAt⟩
    else some b

/-- An attempt, whether it was let through, and whether it opened a window. -/
structure Reply where
  now : Nat
  allowed : Bool
  opened : Bool
  deriving DecidableEq

/-- The attempts on one counter. -/
def replies : Option Bucket → List Nat → List Reply
  | _,[] => []
  | bucket,now::rest => ⟨now,admits limit now bucket,opens now bucket⟩::replies (count limit window now bucket) rest

/-! ### One counter -/

/-- The attempts that were let through, from `first` to `last`. -/
def within (first last : Nat) (r : Reply) : Bool := r.allowed && first ≤ r.now && r.now ≤ last

theorem replies_later {times : List Nat} {first : Nat} (later : ∀ t ∈ times, first ≤ t) (bucket : Option Bucket) :
    ∀ r ∈ replies limit window bucket times, first ≤ r.now := by
  induction times generalizing bucket with
  | nil => exact fun r member => absurd member List.not_mem_nil
  | cons now rest ih =>
    intro r member
    rcases List.mem_cons.mp member with rfl | tail
    · exact later now List.mem_cons_self
    · exact ih (fun t member => later t (List.mem_cons_of_mem now member)) _ r tail

theorem none_within {times : List Nat} (first : Nat) {last : Nat} (later : ∀ t ∈ times, last < t) (bucket : Option Bucket) :
    (replies limit window bucket times).countP (within first last) = 0 := by
  rw [List.countP_eq_zero]
  intro r member counted
  have after : last + 1 ≤ r.now := replies_later limit window (fun t member => later t member) bucket r member
  simp only [within,Bool.and_eq_true,decide_eq_true_eq] at counted
  omega

/-- What is left of a window lets no more through than what is left of its limit. -/
theorem rest_of_window {times : List Nat} (ordered : times.Pairwise (· ≤ ·)) (b : Bucket) (first : Nat) {last : Nat}
    (inside : last ≤ b.resetAt) :
    (replies limit window (some b) times).countP (within first last) ≤ limit - b.count := by
  induction times generalizing b with
  | nil => simp [replies]
  | cons now rest ih =>
    obtain ⟨later,ordered⟩ := List.pairwise_cons.mp ordered
    by_cases past : b.resetAt < now
    · have after : ∀ t ∈ now::rest, last < t := by
        intro t member
        apply Nat.lt_of_le_of_lt inside
        rcases List.mem_cons.mp member with rfl | tail
        · exact past
        · exact Nat.lt_of_lt_of_le past (later t tail)
      rw [none_within limit window first after]
      exact Nat.zero_le _
    · rw [replies,List.countP_cons]
      by_cases room : b.count < limit
      · have tail : _ ≤ limit - (b.count + 1) := ih ordered ⟨b.count + 1,b.resetAt⟩ inside
        simp only [count,past,room,if_true,if_false]
        split
        · omega
        · omega
      · have tail := ih ordered b inside
        have refused : within first last ⟨now,admits limit now (some b),opens now (some b)⟩ = false := by
          simp [within,admits,past,room]
        simp only [count,past,room,if_false,refused,Bool.false_eq_true]
        omega

theorem count_opened {now : Nat} {bucket : Option Bucket} (opened : opens now bucket = true) :
    count limit window now bucket = some ⟨1,now + window⟩ := by
  cases bucket with
  | none => rfl
  | some b =>
    have past : b.resetAt < now := by simpa [opens] using opened
    simp only [count,past,if_true]

/-- A window that is opened lets no more through than the limit. -/
theorem opened_window (positive : 1 ≤ limit) {now : Nat} {rest : List Nat} (ordered : rest.Pairwise (· ≤ ·))
    {bucket : Option Bucket} (opened : opens now bucket = true) (first : Nat) {last : Nat} (inside : last ≤ now + window) :
    (replies limit window bucket (now::rest)).countP (within first last) ≤ limit := by
  rw [replies,List.countP_cons,count_opened limit window opened]
  have tail : _ ≤ limit - 1 := rest_of_window limit window ordered ⟨1,now + window⟩ first inside
  split
  · omega
  · omega

/-- From the beginning of an interval on, the rest of one window and one more window
count. -/
theorem two_windows (positive : 1 ≤ limit) {times : List Nat} (ordered : times.Pairwise (· ≤ ·)) {first : Nat}
    (later : ∀ t ∈ times, first ≤ t) (bucket : Option Bucket) :
    (replies limit window bucket times).countP (within first (first + window)) ≤
      (bucket.elim 0 fun b => limit - b.count) + limit := by
  induction times generalizing bucket with
  | nil => simp [replies]
  | cons now rest ih =>
    have start := later now List.mem_cons_self
    have after : ∀ t ∈ rest, first ≤ t := fun t member => later t (List.mem_cons_of_mem now member)
    have tail := (List.pairwise_cons.mp ordered).2
    cases opened : opens now bucket with
    | true =>
      have one := opened_window limit window positive tail opened first (Nat.add_le_add_right start window)
      omega
    | false =>
      cases bucket with
      | none => contradiction
      | some b =>
        have still : ¬b.resetAt < now := by simpa [opens] using opened
        rw [replies,List.countP_cons]
        by_cases room : b.count < limit
        · have left : _ ≤ limit - (b.count + 1) + limit := ih tail after (some ⟨b.count + 1,b.resetAt⟩)
          simp only [count,still,room,if_true,if_false,Option.elim_some]
          split
          · omega
          · omega
        · have left := ih tail after (some b)
          have refused : within first (first + window) ⟨now,admits limit now (some b),opens now (some b)⟩ = false := by
            simp [within,admits,still,room]
          simp only [count,still,room,if_false,refused,Bool.false_eq_true]
          omega

/-- Every interval as long as a window meets at most two windows. -/
theorem replies_interval (positive : 1 ≤ limit) {times : List Nat} (ordered : times.Pairwise (· ≤ ·)) (first : Nat)
    (bucket : Option Bucket) :
    (replies limit window bucket times).countP (within first (first + window)) ≤ 2 * limit := by
  induction times generalizing bucket with
  | nil => simp [replies]
  | cons now rest ih =>
    obtain ⟨later,tail⟩ := List.pairwise_cons.mp ordered
    by_cases started : first ≤ now
    · have both := two_windows limit window positive ordered (by
        intro t member
        rcases List.mem_cons.mp member with rfl | inside
        · exact started
        · exact Nat.le_trans started (later t inside)) bucket
      have left : (bucket.elim 0 fun b => limit - b.count) ≤ limit := by
        cases bucket with
        | none => exact Nat.zero_le limit
        | some b => exact Nat.sub_le limit b.count
      omega
    · have before : within first (first + window) ⟨now,admits limit now bucket,opens now bucket⟩ = false := by
        simp [within,started]
      rw [replies,List.countP_cons,before]
      exact ih tail _

/-- A window opens after the end of the one before. -/
theorem opened_later {times : List Nat} (b : Bucket) :
    ∀ r ∈ replies limit window (some b) times, r.opened = true → b.resetAt < r.now := by
  induction times generalizing b with
  | nil => exact fun r member => absurd member List.not_mem_nil
  | cons now rest ih =>
    intro r member opened
    rcases List.mem_cons.mp member with rfl | tail
    · simpa [opens] using opened
    · by_cases past : b.resetAt < now
      · simp only [count,past,if_true] at tail
        have next : now + window < r.now := ih ⟨1,now + window⟩ r tail opened
        omega
      · by_cases room : b.count < limit
        · simp only [count,past,room,if_true,if_false] at tail
          exact ih ⟨b.count + 1,b.resetAt⟩ r tail opened
        · simp only [count,past,room,if_false] at tail
          exact ih b r tail opened

/-- After an attempt its window is not past. -/
theorem count_covers (now : Nat) (bucket : Option Bucket) :
    ∃ b, count limit window now bucket = some b ∧ now ≤ b.resetAt := by
  cases bucket with
  | none => exact ⟨_,rfl,Nat.le_add_right now window⟩
  | some b =>
    by_cases past : b.resetAt < now
    · exact ⟨⟨1,now + window⟩,by simp only [count,past,if_true],Nat.le_add_right now window⟩
    · by_cases room : b.count < limit
      · exact ⟨⟨b.count + 1,b.resetAt⟩,by simp only [count,past,room,if_true,if_false],Nat.le_of_not_lt past⟩
      · exact ⟨b,by simp only [count,past,room,if_false],Nat.le_of_not_lt past⟩

/-- Every window that is opened lets no more through than the limit. -/
theorem replies_window (positive : 1 ≤ limit) {times : List Nat} (ordered : times.Pairwise (· ≤ ·)) (bucket : Option Bucket) :
    ∀ r ∈ replies limit window bucket times, r.opened = true →
      (replies limit window bucket times).countP (within r.now (r.now + window)) ≤ limit := by
  induction times generalizing bucket with
  | nil => exact fun r member => absurd member List.not_mem_nil
  | cons now rest ih =>
    intro r member opened
    have tail := (List.pairwise_cons.mp ordered).2
    rcases List.mem_cons.mp member with rfl | inside
    · exact opened_window limit window positive tail opened _ (Nat.le_refl _)
    · obtain ⟨b,counted,covered⟩ := count_covers limit window now bucket
      have before : now < r.now := by
        apply Nat.lt_of_le_of_lt covered
        rw [counted] at inside
        exact opened_later limit window b r inside opened
      have outside : within r.now (r.now + window) ⟨now,admits limit now bucket,opens now bucket⟩ = false := by
        simp [within,Nat.not_le.mpr before]
      rw [replies,List.countP_cons,outside]
      exact ih tail _ r inside opened

end

/-! ### One counter for each key -/

section
variable {K : Type} [DecidableEq K] (limit window : Nat)

/-- An attempt, or a look whether the window of a key is past. -/
inductive Event (K : Type) where
  | attempt (key : K) (now : Nat)
  | collect (key : K) (now : Nat)

def Event.key : Event K → K
  | .attempt key _ | .collect key _ => key

def Event.now : Event K → Nat
  | .attempt _ now | .collect _ now => now

def Event.isAttempt : Event K → Bool
  | .attempt _ _ => true
  | .collect _ _ => false

def Ordered (events : List (Event K)) : Prop := (events.map Event.now).Pairwise (· ≤ ·)

/-- What is left of a counter at a time: nothing, if its window is past. -/
def live (now : Nat) (bucket : Option Bucket) : Option Bucket := bucket.filter fun b => now ≤ b.resetAt

structure Answer (K : Type) extends Reply where
  key : K
  deriving DecidableEq

def step (buckets : K → Option Bucket) : Event K → K → Option Bucket
  | .attempt key now => Function.update buckets key (count limit window now (buckets key))
  | .collect key now => Function.update buckets key (live now (buckets key))

/-- The answers to the attempts of a run. -/
def answers : (K → Option Bucket) → List (Event K) → List (Answer K)
  | _,[] => []
  | buckets,.attempt key now::rest =>
    ⟨⟨now,admits limit now (buckets key),opens now (buckets key)⟩,key⟩::
      answers (step limit window buckets (.attempt key now)) rest
  | buckets,.collect key now::rest => answers (step limit window buckets (.collect key now)) rest

omit [DecidableEq K] in
theorem Ordered.tail {first : Event K} {rest : List (Event K)} (ordered : Ordered (first::rest)) : Ordered rest :=
  (List.pairwise_cons.mp ordered).2

omit [DecidableEq K] in
theorem Ordered.head {first : Event K} {rest : List (Event K)} (ordered : Ordered (first::rest)) :
    ∀ event ∈ rest, first.now ≤ event.now :=
  fun event member => (List.pairwise_cons.mp ordered).1 event.now (List.mem_map_of_mem member)

theorem live_live {first now : Nat} (later : first ≤ now) (bucket : Option Bucket) :
    live now (live first bucket) = live now bucket := by
  cases bucket with
  | none => rfl
  | some b =>
    by_cases still : now ≤ b.resetAt
    · simp [live,Option.filter,Nat.le_trans later still,still]
    · by_cases early : first ≤ b.resetAt
      · simp [live,Option.filter,early,still]
      · simp [live,Option.filter,early,still]

/-- An attempt does not tell an old counter from none. -/
theorem attempt_live (now : Nat) (bucket : Option Bucket) :
    admits limit now (live now bucket) = admits limit now bucket ∧ opens now (live now bucket) = opens now bucket ∧
      count limit window now (live now bucket) = count limit window now bucket := by
  cases bucket with
  | none => exact ⟨rfl,rfl,rfl⟩
  | some b =>
    by_cases past : b.resetAt < now
    · have gone : live now (some b) = none := by simp [live,Option.filter,Nat.not_le.mpr past]
      rw [gone]
      simp [admits,opens,count,past]
    · have kept : live now (some b) = some b := by simp [live,Option.filter,Nat.le_of_not_lt past]
      rw [kept]
      exact ⟨rfl,rfl,rfl⟩

theorem attempt_same {now : Nat} {first second : Option Bucket} (same : live now first = live now second) :
    admits limit now first = admits limit now second ∧ opens now first = opens now second ∧
      count limit window now first = count limit window now second := by
  obtain ⟨admits,opens,count⟩ := attempt_live limit window now first
  obtain ⟨admits',opens',count'⟩ := attempt_live limit window now second
  rw [same] at admits opens count
  exact ⟨admits.symm.trans admits',opens.symm.trans opens',count.symm.trans count'⟩

/-- What the tables hold for some keys is the same from a time on. -/
def Agree (keep : K → Bool) (now : Nat) (first second : K → Option Bucket) : Prop :=
  ∀ key, keep key = true → live now (first key) = live now (second key)

omit [DecidableEq K] in
theorem agree_refl (keep : K → Bool) (now : Nat) (buckets : K → Option Bucket) : Agree keep now buckets buckets :=
  fun _ _ => rfl

omit [DecidableEq K] in
theorem Agree.later {keep : K → Bool} {first second : K → Option Bucket} {now last : Nat} (agree : Agree keep now first second)
    (later : now ≤ last) : Agree keep last first second := by
  intro key kept
  rw [← live_live later (first key),← live_live later (second key),agree key kept]

theorem Agree.collect {keep : K → Bool} {first second : K → Option Bucket} {now : Nat} (agree : Agree keep now first second)
    (key : K) : Agree keep now (step limit window first (.collect key now)) second := by
  intro other kept
  by_cases same : other = key
  · subst same
    rw [step,Function.update_self,live_live (Nat.le_refl now)]
    exact agree other kept
  · rw [step,Function.update_of_ne same]
    exact agree other kept

theorem Agree.foreign {keep : K → Bool} {first second : K → Option Bucket} {now : Nat} (agree : Agree keep now first second)
    {key : K} (other : keep key = false) : Agree keep now (step limit window first (.attempt key now)) second := by
  intro own kept
  have different : own ≠ key := by
    rintro rfl
    rw [kept] at other
    contradiction
  rw [step,Function.update_of_ne different]
  exact agree own kept

theorem Agree.attempt {keep : K → Bool} {first second : K → Option Bucket} {now : Nat} (agree : Agree keep now first second)
    {key : K} (kept : keep key = true) :
    Agree keep now (step limit window first (.attempt key now)) (step limit window second (.attempt key now)) := by
  intro other own
  by_cases same : other = key
  · subst same
    rw [step,step,Function.update_self,Function.update_self,(attempt_same limit window (agree other own)).2.2]
  · rw [step,step,Function.update_of_ne same,Function.update_of_ne same]
    exact agree other own

/-- The answers for some keys come from the attempts on these keys alone. -/
theorem answers_keep (keep : K → Bool) {events : List (Event K)} (ordered : Ordered events)
    {first second : K → Option Bucket} {start : Nat} (agree : Agree keep start first second)
    (begins : ∀ event ∈ events, start ≤ event.now) :
    (answers limit window first events).filter (fun a => keep a.key) =
      answers limit window second (events.filter fun event => event.isAttempt && keep event.key) := by
  induction events generalizing first second start with
  | nil => rfl
  | cons event rest ih =>
    cases event with
    | collect key now =>
      have here : Agree keep now first second := agree.later (begins _ List.mem_cons_self)
      rw [List.filter_cons_of_neg (by simp [Event.isAttempt]),answers]
      exact ih ordered.tail (here.collect limit window key) ordered.head
    | attempt key now =>
      have here : Agree keep now first second := agree.later (begins _ List.mem_cons_self)
      cases kept : keep key with
      | false =>
        rw [List.filter_cons_of_neg (by simp [Event.isAttempt,Event.key,kept]),answers,
          List.filter_cons_of_neg (by simp [kept])]
        exact ih ordered.tail (here.foreign limit window kept) ordered.head
      | true =>
        obtain ⟨admits,opens,-⟩ := attempt_same limit window (here key kept)
        rw [List.filter_cons_of_pos (by simp [Event.isAttempt,Event.key,kept]),answers,answers,
          List.filter_cons_of_pos (by simpa using kept),admits,opens]
        exact congrArg _ (ih ordered.tail (here.attempt limit window kept) ordered.head)

/-- The attempts on one key are those on its counter. -/
theorem answers_one (key : K) (events : List (Event K)) (only : ∀ event ∈ events, event.isAttempt = true ∧ event.key = key)
    (buckets : K → Option Bucket) :
    answers limit window buckets events =
      (replies limit window (buckets key) (events.map Event.now)).map fun r => ⟨r,key⟩ := by
  induction events generalizing buckets with
  | nil => rfl
  | cons event rest ih =>
    have later := ih fun event member => only event (List.mem_cons_of_mem _ member)
    obtain ⟨attempt,same⟩ := only event List.mem_cons_self
    cases event with
    | collect other now => contradiction
    | attempt other now =>
      obtain rfl : other = key := same
      rw [answers,later,step,Function.update_self]
      rfl

/-- The attempts that a key is let through, from `first` to `last`. -/
def admitted (key : K) (first last : Nat) (a : Answer K) : Bool := decide (a.key = key) && within first last a.toReply

/-- What is asked for other keys changes no answer for a key. -/
theorem answers_foreign (key : K) {events : List (Event K)} (ordered : Ordered events) (buckets : K → Option Bucket) :
    (answers limit window buckets events).filter (fun a => a.key = key) =
      answers limit window buckets (events.filter fun event => event.isAttempt && decide (event.key = key)) :=
  answers_keep limit window (fun other => decide (other = key)) ordered (agree_refl _ 0 buckets)
    (fun event _ => Nat.zero_le event.now)

/-- What holds of the answers for a key holds of the run of its own attempts. -/
theorem answers_key (key : K) {events : List (Event K)} (ordered : Ordered events) (buckets : K → Option Bucket) :
    ∃ times : List Nat, times.Pairwise (· ≤ ·) ∧
      (answers limit window buckets events).filter (fun a => a.key = key) =
        (replies limit window (buckets key) times).map fun r => ⟨r,key⟩ := by
  refine ⟨(events.filter fun event => event.isAttempt && decide (event.key = key)).map Event.now,?_,?_⟩
  · exact ordered.sublist (List.filter_sublist.map Event.now)
  · rw [answers_foreign limit window key ordered]
    apply answers_one
    intro event member
    simpa using (List.mem_filter.mp member).2

theorem countP_admitted (key : K) (first last : Nat) {all : List (Answer K)} {rs : List Reply}
    (own : all.filter (fun a => a.key = key) = rs.map fun r => ⟨r,key⟩) :
    all.countP (admitted key first last) = rs.countP (within first last) := by
  have split : admitted key first last = fun a => within first last a.toReply && decide (a.key = key) := by
    funext a
    exact Bool.and_comm _ _
  rw [split,← List.countP_filter,own,List.countP_map]
  rfl

/-- Every interval as long as a window lets at most twice the limit through. -/
theorem answers_interval (positive : 1 ≤ limit) {events : List (Event K)} (ordered : Ordered events)
    (buckets : K → Option Bucket) (key : K) (first : Nat) :
    (answers limit window buckets events).countP (admitted key first (first + window)) ≤ 2 * limit := by
  obtain ⟨times,sorted,own⟩ := answers_key limit window key ordered buckets
  rw [countP_admitted key first _ own]
  exact replies_interval limit window positive sorted first _

theorem answers_window (positive : 1 ≤ limit) {events : List (Event K)} (ordered : Ordered events)
    (buckets : K → Option Bucket) {a : Answer K} (member : a ∈ answers limit window buckets events) (opened : a.opened = true) :
    (answers limit window buckets events).countP (admitted a.key a.now (a.now + window)) ≤ limit := by
  obtain ⟨times,sorted,own⟩ := answers_key limit window a.key ordered buckets
  rw [countP_admitted a.key a.now _ own]
  have inside : a ∈ (answers limit window buckets events).filter (fun other => other.key = a.key) :=
    List.mem_filter.mpr ⟨member,by simp⟩
  rw [own] at inside
  obtain ⟨r,reply,equal⟩ := List.mem_map.mp inside
  have same : a.toReply = r := by rw [← equal]
  rw [same] at opened ⊢
  exact replies_window limit window positive sorted _ r reply opened

/-- Dropping counters whose window is past changes no answer. -/
theorem answers_collect {events : List (Event K)} (ordered : Ordered events) (buckets : K → Option Bucket) :
    answers limit window buckets events = answers limit window buckets (events.filter Event.isAttempt) := by
  have all := answers_keep limit window (fun _ => true) ordered (agree_refl _ 0 buckets) (fun event _ => Nat.zero_le event.now)
  simpa using all

end
end NPSync.Library.FixedWindow
