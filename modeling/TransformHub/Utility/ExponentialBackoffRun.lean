import Mathlib.Tactic.SplitIfs
import TransformHub.Lib.Transition
import TransformHub.Utility.ExponentialBackoff

/-!
# Runs of an exponential backoff

What a timer or a cancellation does to a promise is the same but for the state of its timer
(`Backoff.finish`).
-/

namespace TransformHub.Utility.ExponentialBackoff

/-! ## Promises -/

/-- A promise as it is handed out. -/
def BackoffPromise.opened : BackoffPromise := ⟨.armed, false, 0⟩

/-- A promise that has settled once. -/
structure BackoffPromise.Done (p : BackoffPromise) : Prop where
  timeout : p.timeout ≠ .armed
  settled : p.settled = true
  resolves : p.resolves = 1

namespace Backoff

/-- A promise is pending exactly while its timer is armed and it has not settled. -/
structure Tracks (b : Backoff) : Prop where
  each : ∀ i p, b.promises[i]? = some p → p = .opened ∧ i ∈ b.pending ∨ p.Done ∧ i ∉ b.pending
  pending : ∀ i ∈ b.pending, i < b.promises.length

/-- Promise `i` settles if it has not, and its timer ends. -/
def finish (b : Backoff) (i : ℕ) (timeout : Timeout) : Backoff :=
  if b.promises[i]? = some .opened then
    { b with
      promises := b.promises.set i ⟨timeout, true, 1⟩
      pending := b.pending.filter (· ≠ i) }
  else b

variable {b : Backoff} {i : ℕ} {timeout : Timeout}

theorem finish_of_notOpened (h : b.promises[i]? ≠ some .opened) : b.finish i timeout = b :=
  if_neg h

theorem fire_eq (h : b.Tracks) (i : ℕ) : b.fire i = b.finish i .fired := by
  unfold fire
  cases hp : b.promises[i]? with
  | none =>
    rw [finish_of_notOpened]
    rw [hp]
    simp
  | some p =>
    rcases h.each i p hp with ⟨rfl, -⟩ | ⟨hdone, -⟩
    · rw [finish, if_pos hp]
      rfl
    · have hne : some p ≠ some .opened := by
        rintro hopened
        cases hopened
        exact hdone.timeout rfl
      rw [finish_of_notOpened (hp ▸ hne)]
      simp only [if_neg hdone.timeout]

theorem cancelPromise_eq (h : b.Tracks) (i : ℕ) : (b.cancelPromise i).1 = b.finish i .cleared := by
  unfold cancelPromise
  cases hp : b.promises[i]? with
  | none =>
    rw [finish_of_notOpened]
    rw [hp]
    simp
  | some p =>
    rcases h.each i p hp with ⟨rfl, -⟩ | ⟨hdone, -⟩
    · rw [finish, if_pos hp]
      rfl
    · have hne : some p ≠ some .opened := by
        rintro hopened
        cases hopened
        exact hdone.timeout rfl
      rw [finish_of_notOpened (hp ▸ hne)]
      simp only [hdone.settled, if_true]

theorem getElem?_finish (b : Backoff) (i j : ℕ) (timeout : Timeout) :
    (b.finish i timeout).promises[j]? =
      if j = i ∧ b.promises[i]? = some .opened then some ⟨timeout, true, 1⟩
      else b.promises[j]? := by
  unfold finish
  split_ifs with hopened hj hj
  · obtain ⟨rfl, -⟩ := hj
    obtain ⟨hlt, -⟩ := List.getElem?_eq_some_iff.mp hopened
    rw [List.getElem?_set_self hlt]
  · rw [List.getElem?_set_ne]
    rintro rfl
    exact hj ⟨rfl, hopened⟩
  · exact absurd hj.2 hopened
  · rfl

@[simp] theorem length_finish (b : Backoff) (i : ℕ) (timeout : Timeout) :
    (b.finish i timeout).promises.length = b.promises.length := by
  unfold finish
  split_ifs
  · exact List.length_set
  · rfl

theorem mem_pending_finish {j : ℕ} :
    j ∈ (b.finish i timeout).pending ↔
      j ∈ b.pending ∧ ¬ (j = i ∧ b.promises[i]? = some .opened) := by
  unfold finish
  split_ifs with hopened <;> simp [hopened]

theorem options_finish (b : Backoff) (i : ℕ) (timeout : Timeout) :
    (b.finish i timeout).initialDelay = b.initialDelay ∧
      (b.finish i timeout).maxDelay = b.maxDelay ∧
        (b.finish i timeout).attempts = b.attempts := by
  unfold finish
  split <;> exact ⟨rfl, rfl, rfl⟩

theorem Tracks.finish (h : b.Tracks) (htimeout : timeout ≠ .armed) (i : ℕ) :
    (b.finish i timeout).Tracks := by
  constructor
  · intro j p hp
    rw [getElem?_finish] at hp
    rw [mem_pending_finish]
    split_ifs at hp with hj
    · cases hp
      exact .inr ⟨⟨htimeout, rfl, rfl⟩, fun hmem => hmem.2 hj⟩
    · rcases h.each j p hp with ⟨rfl, hmem⟩ | ⟨hdone, hmem⟩
      · exact .inl ⟨rfl, hmem, hj⟩
      · exact .inr ⟨hdone, fun hmem' => hmem hmem'.1⟩
  · intro j hj
    rw [length_finish]
    exact h.pending j (mem_pending_finish.mp hj).1

theorem done_finish {j : ℕ} {p : BackoffPromise} (hp : b.promises[j]? = some p) (hdone : p.Done) :
    (b.finish i timeout).promises[j]? = some p := by
  rw [getElem?_finish, if_neg]
  · exact hp
  · rintro ⟨rfl, hopened⟩
    rw [hp] at hopened
    cases hopened
    exact hdone.timeout rfl

theorem Tracks.call (h : b.Tracks) (fires : Bool) : (b.call fires).Tracks := by
  constructor
  · intro j p hp
    rcases Nat.lt_trichotomy j b.promises.length with hj | rfl | hj
    · have hold : b.promises[j]? = some p := by
        rw [← hp]
        exact (List.getElem?_append_left hj).symm
      have hmem : j ∈ (b.call fires).pending ↔ j ∈ b.pending := by
        cases fires <;> simp [Backoff.call, BackoffPromise.settle, Nat.ne_of_lt hj]
      rw [hmem]
      exact h.each j p hold
    · have hnew : b.promises.length ∉ b.pending := fun hmem => Nat.lt_irrefl _ (h.pending _ hmem)
      have hlast : (b.call fires).promises[b.promises.length]? =
          some (if fires then BackoffPromise.settle ⟨.fired, false, 0⟩ else .opened) := by
        cases fires <;> simp [Backoff.call, BackoffPromise.opened]
      rw [hlast] at hp
      cases fires with
      | false =>
        cases hp
        exact .inl ⟨rfl, by simp [Backoff.call]⟩
      | true =>
        cases hp
        refine .inr ⟨⟨by simp [BackoffPromise.settle], rfl, rfl⟩, ?_⟩
        simpa [Backoff.call, BackoffPromise.settle] using hnew
    · have hnone : (b.call fires).promises[j]? = none := by
        apply List.getElem?_eq_none
        simp only [Backoff.call, List.length_append, List.length_singleton]
        omega
      rw [hnone] at hp
      cases hp
  · intro j hj
    simp only [Backoff.call, List.length_append, List.length_singleton] at hj ⊢
    split at hj
    · exact Nat.lt_succ_of_lt (h.pending j hj)
    · rcases List.mem_append.mp hj with hj | hj
      · exact Nat.lt_succ_of_lt (h.pending j hj)
      · rw [List.mem_singleton] at hj
        omega

/-! ## Cancellation -/

/-- The loop of `cancel` over some of the pending promises. -/
def finishAll (b : Backoff) (is : List ℕ) : Backoff := is.foldl (fun b i => b.finish i .cleared) b

theorem cancel_eq (h : b.Tracks) : b.cancel.1 = b.finishAll b.pending := by
  unfold cancel finishAll
  refine (List.foldl_rel (r := fun c (b' : Backoff) => Prod.fst c = b' ∧ b'.Tracks) ⟨rfl, h⟩ ?_).1
  rintro i - ⟨b, cancelled⟩ _ ⟨rfl, hb⟩
  exact ⟨cancelPromise_eq hb i, hb.finish (by decide) i⟩

theorem Tracks.finishAll (h : b.Tracks) (is : List ℕ) : (b.finishAll is).Tracks := by
  induction is generalizing b with
  | nil => exact h
  | cons i is ih => exact ih (h.finish (by decide) i)

theorem options_finishAll (b : Backoff) (is : List ℕ) :
    (b.finishAll is).initialDelay = b.initialDelay ∧ (b.finishAll is).maxDelay = b.maxDelay ∧
      (b.finishAll is).attempts = b.attempts := by
  induction is generalizing b with
  | nil => exact ⟨rfl, rfl, rfl⟩
  | cons i is ih =>
    obtain ⟨hinit, hmax, hattempts⟩ := ih (b.finish i .cleared)
    obtain ⟨hinit', hmax', hattempts'⟩ := options_finish b i .cleared
    exact ⟨hinit.trans hinit', hmax.trans hmax', hattempts.trans hattempts'⟩

theorem length_finishAll (b : Backoff) (is : List ℕ) :
    (b.finishAll is).promises.length = b.promises.length := by
  induction is generalizing b with
  | nil => rfl
  | cons i is ih => exact (ih (b.finish i .cleared)).trans (length_finish b i .cleared)

theorem done_finishAll {j : ℕ} {p : BackoffPromise} (is : List ℕ) (hp : b.promises[j]? = some p)
    (hdone : p.Done) : (b.finishAll is).promises[j]? = some p := by
  induction is generalizing b with
  | nil => exact hp
  | cons i is ih => exact ih (done_finish hp hdone)

theorem done_of_mem (h : b.Tracks) {is : List ℕ} {j : ℕ} (hj : j ∈ is) {p : BackoffPromise}
    (hp : (b.finishAll is).promises[j]? = some p) : p.Done := by
  induction is generalizing b with
  | nil => cases hj
  | cons i is ih =>
    have hb : (b.finish i .cleared).Tracks := h.finish (by decide) i
    rcases List.mem_cons.mp hj with rfl | hj
    · have hend : ∃ q, (b.finish j .cleared).promises[j]? = some q ∧ q.Done := by
        have hlt : j < (b.finish j .cleared).promises.length := by
          have hlength := length_finishAll (b.finish j .cleared) is
          obtain ⟨hlt, -⟩ := List.getElem?_eq_some_iff.mp hp
          rw [← hlength]
          exact hlt
        refine ⟨_, List.getElem?_eq_getElem hlt, ?_⟩
        rcases hb.each j _ (List.getElem?_eq_getElem hlt) with ⟨hopened, -⟩ | ⟨hdone, -⟩
        · -- the first end leaves no opened promise
          have hget := List.getElem?_eq_getElem hlt
          rw [hopened, getElem?_finish] at hget
          split_ifs at hget with hcond
          · cases hget
          · exact absurd ⟨rfl, hget⟩ hcond
        · exact hdone
      obtain ⟨q, hq, hdone⟩ := hend
      have hkept : (b.finishAll (j :: is)).promises[j]? = some q := done_finishAll is hq hdone
      rw [hkept] at hp
      cases hp
      exact hdone
    · exact ih hb hj hp

theorem done_cancel (h : b.Tracks) {j : ℕ} {p : BackoffPromise}
    (hp : b.cancel.1.promises[j]? = some p) : p.Done := by
  rw [cancel_eq h] at hp
  have hlt : j < b.promises.length := by
    obtain ⟨hlt, -⟩ := List.getElem?_eq_some_iff.mp hp
    rw [length_finishAll] at hlt
    exact hlt
  rcases h.each j _ (List.getElem?_eq_getElem hlt) with ⟨-, hmem⟩ | ⟨hdone, -⟩
  · exact done_of_mem h hmem hp
  · have hkept := done_finishAll b.pending (List.getElem?_eq_getElem hlt) hdone
    rw [hkept] at hp
    cases hp
    exact hdone

end Backoff

/-! ## Delays -/

def delayAt (initialDelay maxDelay : ℤ) (n : ℕ) : Number :=
  .min (.scale initialDelay (.pow2 n)) (.finite maxDelay)

def Between (initialDelay maxDelay : ℤ) (d : Number) : Prop :=
  ∃ i, d = .finite i ∧ initialDelay ≤ i ∧ i ≤ maxDelay

/-- The delays are numbers, the first of which is not above the second. -/
def NotAbove (d d' : Number) : Prop := ∃ i j, d = .finite i ∧ d' = .finite j ∧ i ≤ j

section Delays

variable {initialDelay maxDelay : ℤ}

theorem delayAt_of_lt {n : ℕ} (hn : n < 1024) :
    delayAt initialDelay maxDelay n = .finite (min (initialDelay * 2 ^ n) maxDelay) := by
  unfold delayAt Number.pow2
  rw [if_pos hn]
  rfl

theorem delayAt_of_ge {n : ℕ} (hpos : 0 < initialDelay) (hn : 1024 ≤ n) :
    delayAt initialDelay maxDelay n = .finite maxDelay := by
  unfold delayAt Number.pow2
  rw [if_neg (Nat.not_lt.mpr hn), Number.scale, if_neg (by omega), if_pos hpos]
  rfl

theorem delayAt_nan {n : ℕ} (hn : 1024 ≤ n) : delayAt 0 maxDelay n = .nan := by
  unfold delayAt Number.pow2
  rw [if_neg (Nat.not_lt.mpr hn)]
  rfl

theorem between_delayAt_iff (hinit : 0 ≤ initialDelay) (hle : initialDelay ≤ maxDelay) (n : ℕ) :
    Between initialDelay maxDelay (delayAt initialDelay maxDelay n) ↔
      0 < initialDelay ∨ n < 1024 := by
  by_cases hn : n < 1024
  · refine ⟨fun _ => .inr hn, fun _ => ⟨_, delayAt_of_lt hn, ?_, Int.min_le_right _ _⟩⟩
    have hpow : (1 : ℤ) ≤ 2 ^ n := Int.pow_pos (by decide)
    have hscaled : initialDelay * 1 ≤ initialDelay * 2 ^ n :=
      Int.mul_le_mul_of_nonneg_left hpow hinit
    rw [Int.mul_one] at hscaled
    exact Int.le_min.mpr ⟨hscaled, hle⟩
  · have hn : 1024 ≤ n := Nat.not_lt.mp hn
    rcases Int.lt_or_eq_of_le hinit with hpos | hzero
    · exact ⟨fun _ => .inl hpos, fun _ => ⟨_, delayAt_of_ge hpos hn, hle, Int.le_refl _⟩⟩
    · subst hzero
      rw [delayAt_nan hn]
      constructor
      · rintro ⟨i, hi, -⟩
        cases hi
      · rintro (h | h) <;> omega

theorem notAbove_delayAt (hinit : 0 ≤ initialDelay) {k n : ℕ} (hkn : k ≤ n)
    (h : 0 < initialDelay ∨ n < 1024) :
    NotAbove (delayAt initialDelay maxDelay k) (delayAt initialDelay maxDelay n) := by
  by_cases hn : n < 1024
  · refine ⟨_, _, delayAt_of_lt (Nat.lt_of_le_of_lt hkn hn), delayAt_of_lt hn, ?_⟩
    have hpow : (2 : ℤ) ^ k ≤ 2 ^ n := by
      exact_mod_cast Nat.pow_le_pow_right (by decide : 0 < 2) hkn
    have hscaled : initialDelay * 2 ^ k ≤ initialDelay * 2 ^ n :=
      Int.mul_le_mul_of_nonneg_left hpow hinit
    omega
  · have hpos : 0 < initialDelay := h.resolve_right hn
    have hn : 1024 ≤ n := Nat.not_lt.mp hn
    by_cases hk : k < 1024
    · exact ⟨_, _, delayAt_of_lt hk, delayAt_of_ge hpos hn, Int.min_le_right _ _⟩
    · exact ⟨_, _, delayAt_of_ge hpos (Nat.not_lt.mp hk), delayAt_of_ge hpos hn, Int.le_refl _⟩

end Delays

/-! ## Runs -/

namespace State

/-- Every delay that the timer was given is a number between the initial delay and the maximum, and
the delays since the last success do not decrease. A promise has settled once when its timer has
ended, and not before; after `cancel()` that is so of all promises that had been handed out. -/
structure Fine (s : State) : Prop where
  between : ∀ d ∈ s.earlier ++ s.delays, Between s.backoff.initialDelay s.backoff.maxDelay d
  increasing : s.delays.Pairwise NotAbove
  once : ∀ p ∈ s.backoff.promises, p.resolves = if p.timeout = .armed then 0 else 1
  cancelled : ∀ p ∈ s.backoff.promises.take s.cancelled, p.timeout ≠ .armed ∧ p.resolves = 1

/-- A delay is asked for when zero is not multiplied with an infinite power. -/
def Representable (s : State) : Event → Prop
  | .call _ => 0 < s.backoff.initialDelay ∨ s.backoff.attempts < 1024
  | _ => True

structure Inv (s : State) : Prop where
  init : 0 ≤ s.backoff.initialDelay
  le : s.backoff.initialDelay ≤ s.backoff.maxDelay
  tracks : s.backoff.Tracks
  delays : s.delays =
    (List.range s.backoff.attempts).map (delayAt s.backoff.initialDelay s.backoff.maxDelay)
  done : ∀ i p, i < s.cancelled → s.backoff.promises[i]? = some p → p.Done
  handed : s.cancelled ≤ s.backoff.promises.length

variable {s : State}

theorem Inv.once (h : s.Inv) :
    ∀ p ∈ s.backoff.promises, p.resolves = if p.timeout = .armed then 0 else 1 := by
  intro p hp
  obtain ⟨i, hi⟩ := List.mem_iff_getElem?.mp hp
  rcases h.tracks.each i p hi with ⟨rfl, -⟩ | ⟨hdone, -⟩
  · rfl
  · rw [if_neg hdone.timeout, hdone.resolves]

theorem Inv.cancelled (h : s.Inv) :
    ∀ p ∈ s.backoff.promises.take s.cancelled, p.timeout ≠ .armed ∧ p.resolves = 1 := by
  intro p hp
  obtain ⟨i, hi⟩ := List.mem_iff_getElem?.mp hp
  rw [List.getElem?_take] at hi
  split at hi
  · rename_i hlt
    have hdone := h.done i p hlt hi
    exact ⟨hdone.timeout, hdone.resolves⟩
  · cases hi

theorem Inv.of_finish (h : s.Inv) (i : ℕ) {timeout : Timeout} (htimeout : timeout ≠ .armed) :
    ({ s with backoff := s.backoff.finish i timeout } : State).Inv := by
  obtain ⟨hinit, hmax, hattempts⟩ := Backoff.options_finish s.backoff i timeout
  constructor
  · rw [hinit]
    exact h.init
  · rw [hinit, hmax]
    exact h.le
  · exact h.tracks.finish htimeout i
  · rw [hinit, hmax, hattempts]
    exact h.delays
  · intro j p hj hp
    have hlt : j < s.backoff.promises.length := Nat.lt_of_lt_of_le hj h.handed
    have hget := List.getElem?_eq_getElem hlt
    have hdone := h.done j _ hj hget
    have hkept : (s.backoff.finish i timeout).promises[j]? = _ := Backoff.done_finish hget hdone
    rw [hkept] at hp
    cases hp
    exact hdone
  · rw [Backoff.length_finish]
    exact h.handed

theorem Inv.next (h : s.Inv) (e : Event) : (s.next e).Inv := by
  cases e with
  | call fires =>
    refine ⟨h.init, h.le, h.tracks.call fires, ?_, ?_, ?_⟩
    · show s.delays ++ [s.backoff.delay] = (List.range (s.backoff.attempts + 1)).map _
      rw [List.range_succ, List.map_append, h.delays]
      rfl
    · intro i p hi hp
      have hlt : i < s.backoff.promises.length := Nat.lt_of_lt_of_le hi h.handed
      apply h.done i p hi
      rw [← hp]
      exact (List.getElem?_append_left hlt).symm
    · show s.cancelled ≤ (s.backoff.promises ++ _).length
      rw [List.length_append]
      exact Nat.le_trans h.handed (Nat.le_add_right _ _)
  | fire i =>
    rw [State.next, Backoff.fire_eq h.tracks]
    exact h.of_finish i (by decide)
  | cancelPromise i =>
    rw [State.next, Backoff.cancelPromise_eq h.tracks]
    exact h.of_finish i (by decide)
  | cancel =>
    obtain ⟨hinit, hmax, hattempts⟩ := Backoff.options_finishAll s.backoff s.backoff.pending
    have hcancel := Backoff.cancel_eq h.tracks
    rw [State.next]
    constructor
    · rw [hcancel, hinit]
      exact h.init
    · rw [hcancel, hinit, hmax]
      exact h.le
    · rw [hcancel]
      exact h.tracks.finishAll _
    · rw [hcancel, hinit, hmax, hattempts]
      exact h.delays
    · intro i p _ hp
      exact Backoff.done_cancel h.tracks hp
    · show s.backoff.promises.length ≤ s.backoff.cancel.1.promises.length
      apply Nat.le_of_eq
      rw [hcancel, Backoff.length_finishAll]
  | success => exact ⟨h.init, h.le, ⟨h.tracks.each, h.tracks.pending⟩, rfl, h.done, h.handed⟩

theorem representable_iff (h : s.Inv) (hfine : s.Fine) (e : Event) :
    (s.next e).Fine ↔ s.Representable e := by
  have hnext := h.next e
  have hkept : (∀ d ∈ (s.next e).earlier ++ (s.next e).delays,
      Between (s.next e).backoff.initialDelay (s.next e).backoff.maxDelay d) →
      (s.next e).delays.Pairwise NotAbove → (s.next e).Fine :=
    fun hbetween hincreasing => ⟨hbetween, hincreasing, hnext.once, hnext.cancelled⟩
  -- a step that asks for no delay gives the timer none
  have hquiet : (s.next e).earlier ++ (s.next e).delays = s.earlier ++ s.delays →
      (s.next e).delays = s.delays ∨ (s.next e).delays = [] →
      (s.next e).backoff.initialDelay = s.backoff.initialDelay →
      (s.next e).backoff.maxDelay = s.backoff.maxDelay → (s.next e).Fine := by
    intro hall hdelays hinit hmax
    apply hkept
    · rw [hall, hinit, hmax]
      exact hfine.between
    · rcases hdelays with hdelays | hdelays <;> rw [hdelays]
      · exact hfine.increasing
      · exact .nil
  cases e with
  | call fires =>
    have hiff := between_delayAt_iff h.init h.le s.backoff.attempts
    have hdelay : s.backoff.delay =
        delayAt s.backoff.initialDelay s.backoff.maxDelay s.backoff.attempts := rfl
    constructor
    · intro hfine'
      apply hiff.mp
      apply hfine'.between
      apply List.mem_append_right
      exact List.mem_append_right _ (List.mem_singleton_self _)
    · intro hok
      apply hkept
      · intro d hd
        show Between s.backoff.initialDelay s.backoff.maxDelay d
        have hd : d ∈ s.earlier ++ (s.delays ++ [s.backoff.delay]) := hd
        rw [← List.append_assoc, List.mem_append, List.mem_singleton] at hd
        rcases hd with hd | rfl
        · exact hfine.between d hd
        · rw [hdelay]
          exact hiff.mpr hok
      · show (s.delays ++ [s.backoff.delay]).Pairwise NotAbove
        rw [List.pairwise_append]
        refine ⟨hfine.increasing, List.pairwise_singleton _ _, ?_⟩
        intro d hd d' hd'
        rw [List.mem_singleton] at hd'
        rw [h.delays] at hd
        obtain ⟨k, hk, rfl⟩ := List.mem_map.mp hd
        rw [hd', hdelay]
        exact notAbove_delayAt h.init (Nat.le_of_lt (List.mem_range.mp hk)) hok
  | fire i =>
    refine ⟨fun _ => trivial, fun _ => hquiet rfl (.inl rfl) ?_ ?_⟩
    · rw [State.next, Backoff.fire_eq h.tracks]
      exact (Backoff.options_finish _ _ _).1
    · rw [State.next, Backoff.fire_eq h.tracks]
      exact (Backoff.options_finish _ _ _).2.1
  | cancelPromise i =>
    refine ⟨fun _ => trivial, fun _ => hquiet rfl (.inl rfl) ?_ ?_⟩
    · rw [State.next, Backoff.cancelPromise_eq h.tracks]
      exact (Backoff.options_finish _ _ _).1
    · rw [State.next, Backoff.cancelPromise_eq h.tracks]
      exact (Backoff.options_finish _ _ _).2.1
  | cancel =>
    refine ⟨fun _ => trivial, fun _ => hquiet rfl (.inl rfl) ?_ ?_⟩
    · rw [State.next, Backoff.cancel_eq h.tracks]
      exact (Backoff.options_finishAll _ _).1
    · rw [State.next, Backoff.cancel_eq h.tracks]
      exact (Backoff.options_finishAll _ _).2.1
  | success =>
    refine ⟨fun _ => trivial, fun _ => hquiet ?_ (.inr rfl) rfl rfl⟩
    exact List.append_nil _

theorem eq_of_created {initialDelay maxDelay : Number} {b : Backoff}
    (h : createExponentialBackoff initialDelay maxDelay = .ok b) :
    0 ≤ b.initialDelay ∧ b.initialDelay ≤ b.maxDelay ∧
      b = ⟨b.initialDelay, b.maxDelay, 0, [], []⟩ := by
  unfold createExponentialBackoff at h
  split at h
  · split at h
    · cases h
    · rename_i hinit
      split at h
      · split at h
        · cases h
        · rename_i hle
          cases h
          exact ⟨Int.not_lt.mp hinit, Int.not_lt.mp hle, rfl⟩
      · cases h
  · cases h

theorem inv_start {initialDelay maxDelay : ℤ} (hinit : 0 ≤ initialDelay)
    (hle : initialDelay ≤ maxDelay) : (start ⟨initialDelay, maxDelay, 0, [], []⟩).Inv where
  init := hinit
  le := hle
  tracks := ⟨fun _ _ hp => (by cases hp), nofun⟩
  delays := rfl
  done := fun i _ hi => absurd hi (Nat.not_lt_zero i)
  handed := Nat.le_refl 0

theorem fine_start (initialDelay maxDelay : ℤ) :
    (start ⟨initialDelay, maxDelay, 0, [], []⟩).Fine where
  between := nofun
  increasing := .nil
  once := nofun
  cancelled := nofun

theorem always_iff {initialDelay maxDelay : Number} {b : Backoff}
    (h : createExponentialBackoff initialDelay maxDelay = .ok b) (events : List Event) :
    System.Always State.next Fine (start b) events ↔
      System.Meets State.next Representable (start b) events := by
  obtain ⟨hinit, hle, hb⟩ := eq_of_created h
  rw [hb]
  apply System.always_iff_meets (A := fun _ => True) (I := Inv) (P := Fine)
  · exact fun _ e _ hI hP => representable_iff hI hP e
  · exact fun _ e _ hI _ _ => hI.next e
  · exact inv_start hinit hle
  · exact fine_start b.initialDelay b.maxDelay
  · exact fun _ _ => trivial

/-- In every run, for every initial delay and maximum that are admitted, all is fine exactly when no
delay is asked for after 1024 attempts without a success that began with a delay of zero. -/
theorem backoff_fine_iff (initialDelay maxDelay : Number) (b : Backoff)
    (h : createExponentialBackoff initialDelay maxDelay = .ok b) (events : List Event) :
    System.Always State.next Fine (start b) events ↔
      System.Meets State.next Representable (start b) events :=
  always_iff h events

/-- Timers that fire, single and common cancellations, and a success. -/
theorem backoff_fine_capped :
    System.Always State.next Fine (start ⟨10, 25, 0, [], []⟩)
      [.call false, .fire 0, .call false, .call false, .cancelPromise 1, .cancel, .success,
        .call true] := by
  apply (backoff_fine_iff (.finite 10) (.finite 25) ⟨10, 25, 0, [], []⟩ rfl _).mpr
  have hpos : (0 : ℤ) < 10 := by decide
  exact ⟨.inl hpos, trivial, .inl hpos, .inl hpos, trivial, trivial, trivial, .inl hpos, trivial⟩

theorem foldl_calls (s : State) (n : ℕ) :
    ((List.replicate n (.call false)).foldl State.next s).backoff.attempts =
        s.backoff.attempts + n ∧
      ((List.replicate n (.call false)).foldl State.next s).backoff.initialDelay =
        s.backoff.initialDelay := by
  induction n generalizing s with
  | zero => exact ⟨rfl, rfl⟩
  | succ n ih =>
    obtain ⟨hattempts, hinit⟩ := ih (s.next (.call false))
    rw [List.replicate_succ, List.foldl_cons]
    refine ⟨hattempts.trans ?_, hinit⟩
    show s.backoff.attempts + 1 + n = s.backoff.attempts + (n + 1)
    omega

/-- The delay of attempt 1025 of a backoff that begins with zero is not a number. -/
theorem not_backoff_fine_zero :
    createExponentialBackoff (.finite 0) (.finite 1000) = .ok ⟨0, 1000, 0, [], []⟩ ∧
      ¬ System.Always State.next Fine (start ⟨0, 1000, 0, [], []⟩)
        (List.replicate 1024 (.call false) ++ [.call false]) := by
  refine ⟨rfl, fun h => ?_⟩
  have hmeets := (@always_iff (.finite 0) (.finite 1000) ⟨0, 1000, 0, [], []⟩ rfl _).mp h
  obtain ⟨-, hlast, -⟩ := System.meets_append.mp hmeets
  obtain ⟨hattempts, hinit⟩ := foldl_calls (start ⟨0, 1000, 0, [], []⟩) 1024
  rcases hlast with hpos | hlt
  · rw [hinit] at hpos
    exact absurd hpos (by decide)
  · rw [hattempts] at hlt
    exact absurd hlt (by decide)

end State

end TransformHub.Utility.ExponentialBackoff
