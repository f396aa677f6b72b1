import Mathlib.Data.List.Sort
import Mathlib.Data.Nat.Find
import Mathlib.Order.Nat
import TextVectors.Proofs.Service.Course

/-!
# Time, permits and threads

Time may pass in one go or bit by bit: `advance_advance`. An encode that has
been handed over makes one permit fewer available as long as it lasts and none
fewer afterwards: `free_advance_start`. The next encode is handed over at the
first moment at which a permit is free, unless that is too late:
`entry_eq_some_iff`. And a thread takes it up at the first moment at which fewer
encodes that were handed over before it are left than there are threads:
`countP_pickup_lt` and `threads_le_countP`.

Most of this is said of states that are up to date, where no encode that has
ended still holds its permit.
-/

namespace TextVectors

namespace Service

theorem threads_pos : 0 < threads := by decide

namespace State

variable {state : State}

@[simp]
theorem advance_now (state : State) (time : Nat) : (state.advance time).now = time := rfl

@[simp]
theorem advance_free (state : State) (time : Nat) :
    (state.advance time).free = state.free + state.running.countP (· ≤ time) := by
  rw [List.countP_eq_length_filter]
  rfl

@[simp]
theorem advance_running (state : State) (time : Nat) :
    (state.advance time).running = state.running.filter (time < ·) := rfl

/-- Permits come back from the encodes that end, and from nowhere else. -/
theorem free_add_length_running_advance (state : State) (time : Nat) :
    (state.advance time).free + (state.advance time).running.length =
      state.free + state.running.length := by
  have parts : state.running.length =
      state.running.countP (· ≤ time) + (state.running.filter (time < ·)).length := by
    rw [List.length_eq_countP_add_countP (fun finish => decide (finish ≤ time)),
      ← List.countP_eq_length_filter]
    simp only [decide_eq_true_eq, not_le]
  rw [advance_free, advance_running, parts, Nat.add_assoc]

theorem free_add_length_running_start (available : 0 < state.free) (elapsed : Nat)
    (calls : List Call) :
    (state.start elapsed calls).free + (state.start elapsed calls).running.length =
      state.free + state.running.length := by
  simp only [start, List.length_cons]
  omega

/-- No encode that has ended holds a permit. -/
def UpToDate (state : State) : Prop :=
  ∀ finish ∈ state.running, state.now < finish

theorem upToDate_advance (state : State) (time : Nat) : (state.advance time).UpToDate := by
  intro finish mem
  exact of_decide_eq_true (List.mem_filter.mp mem).2

theorem UpToDate.free_advance_now (upToDate : state.UpToDate) :
    (state.advance state.now).free = state.free := by
  have none_ended : state.running.countP (· ≤ state.now) = 0 := by
    rw [List.countP_eq_zero]
    intro finish mem
    have later := upToDate finish mem
    simp only [decide_eq_true_eq]
    omega
  rw [advance_free, none_ended, Nat.add_zero]

theorem advance_advance {first second : Nat} (later : first ≤ second) :
    (state.advance first).advance second = state.advance second := by
  have split : state.running.countP (· ≤ first) +
      (state.running.filter (first < ·)).countP (· ≤ second) =
        state.running.countP (· ≤ second) := by
    induction state.running with
    | nil => rfl
    | cons finish running ih =>
        simp only [List.countP_cons, List.filter_cons]
        by_cases ended : finish ≤ first
        · simp [ended, not_lt.mpr ended, ended.trans later]
          omega
        · simp [ended, not_le.mp ended, List.countP_cons]
          omega
  have kept : (state.running.filter (first < ·)).filter (second < ·) =
      state.running.filter (second < ·) := by
    rw [List.filter_filter]
    apply List.filter_congr
    intro finish _
    by_cases lasts : second < finish
    · simp [lasts, later.trans_lt lasts]
    · simp [lasts]
  simp only [advance, State.mk.injEq, true_and]
  refine ⟨?_, kept, trivial⟩
  simp only [← List.countP_eq_length_filter] at split ⊢
  omega

/-- An encode makes one permit fewer available as long as it lasts. -/
theorem free_advance_start (available : 0 < state.free) (elapsed time : Nat) (calls : List Call) :
    ((state.start elapsed calls).advance time).free +
        (if time < state.pickup + elapsed then 1 else 0) =
      (state.advance time).free := by
  simp only [advance_free, start, List.countP_cons]
  by_cases lasts : time < state.pickup + elapsed
  · simp [lasts, not_le.mpr lasts]
    omega
  · simp [lasts, not_lt.mp lasts]
    omega

/-! ## The next thread -/

/-- Where values fall, those above one of them all stand before it. -/
theorem countP_getElem_lt {values : List Nat} (falling : values.Pairwise (· ≥ ·)) {index : Nat}
    (within : index < values.length) : values.countP (values[index] < ·) ≤ index := by
  induction falling generalizing index with
  | nil => simp at within
  | @cons value rest below falling ih =>
      cases index with
      | zero =>
          rw [List.getElem_cons_zero, Nat.le_zero, List.countP_eq_zero]
          intro other mem
          rw [decide_eq_true_eq, not_lt]
          rcases List.mem_cons.mp mem with rfl | later
          · exact le_rfl
          · exact below other later
      | succ index =>
          have rest_few := ih (Nat.lt_of_succ_lt_succ within)
          rw [List.getElem_cons_succ, List.countP_cons]
          split
          · omega
          · omega

/-- Where values fall, one of them and all before it are above whatever is less. -/
theorem lt_countP_of_lt_getElem {values : List Nat} (falling : values.Pairwise (· ≥ ·))
    {index time : Nat} (within : index < values.length) (less : time < values[index]) :
    index < values.countP (time < ·) := by
  induction falling generalizing index with
  | nil => simp at within
  | @cons value rest below falling ih =>
      cases index with
      | zero =>
          rw [List.getElem_cons_zero] at less
          rw [List.countP_cons, if_pos (decide_eq_true less)]
          exact Nat.succ_pos _
      | succ index =>
          have inside : index < rest.length := Nat.lt_of_succ_lt_succ within
          rw [List.getElem_cons_succ] at less
          have above : time < value := less.trans_le (below _ (List.getElem_mem inside))
          have rest_many := ih inside less
          rw [List.countP_cons, if_pos (decide_eq_true above)]
          omega

/-- The ends of the encodes under way, the last of them first. -/
theorem pickup_of_crowded (crowded : threads ≤ state.running.length) :
    ∃ within : threads - 1 < (state.running.mergeSort (· ≥ ·)).length,
      state.pickup = (state.running.mergeSort (· ≥ ·))[threads - 1] := by
  have within : threads - 1 < (state.running.mergeSort (· ≥ ·)).length := by
    have some_thread := threads_pos
    rw [List.length_mergeSort]
    omega
  refine ⟨within, ?_⟩
  rw [pickup, if_neg crowded.not_gt, List.getD_eq_getElem?_getD, List.getElem?_eq_getElem within,
    Option.getD_some]

theorem UpToDate.now_le_pickup (upToDate : state.UpToDate) : state.now ≤ state.pickup := by
  by_cases few : state.running.length < threads
  · rw [pickup, if_pos few]
  · rcases pickup_of_crowded (not_lt.mp few) with ⟨within, picked⟩
    rw [picked]
    exact (upToDate _ (List.mem_mergeSort.mp (List.getElem_mem within))).le

/-- When a thread takes up the next encode, fewer of those before it are left than there are
threads. -/
theorem countP_pickup_lt (state : State) : state.running.countP (state.pickup < ·) < threads := by
  by_cases few : state.running.length < threads
  · exact List.countP_le_length.trans_lt few
  · rcases pickup_of_crowded (not_lt.mp few) with ⟨within, picked⟩
    have some_thread := threads_pos
    have left := countP_getElem_lt (List.pairwise_mergeSort' (· ≥ ·) state.running) within
    rw [(List.mergeSort_perm _ _).countP_eq, ← picked] at left
    omega

/-- Until then, they keep all threads busy. -/
theorem threads_le_countP {time : Nat} (late : state.now ≤ time) (early : time < state.pickup) :
    threads ≤ state.running.countP (time < ·) := by
  by_cases few : state.running.length < threads
  · rw [pickup, if_pos few] at early
    omega
  · rcases pickup_of_crowded (not_lt.mp few) with ⟨within, picked⟩
    rw [picked] at early
    have busy := lt_countP_of_lt_getElem (List.pairwise_mergeSort' (· ≥ ·) state.running) within
      early
    rw [(List.mergeSort_perm _ _).countP_eq] at busy
    omega

/-! ## The next encode -/

theorem free_pos_iff {time : Nat} :
    0 < (state.advance time).free ↔ 0 < state.free ∨ ∃ finish ∈ state.running, finish ≤ time := by
  rw [advance_free, Nat.add_pos_iff_pos_or_pos, List.countP_pos_iff]
  simp

theorem free_eq_zero_iff {time : Nat} :
    (state.advance time).free = 0 ↔ state.free = 0 ∧ ∀ finish ∈ state.running, time < finish := by
  rw [advance_free, Nat.add_eq_zero_iff, List.countP_eq_zero]
  simp

theorem admission_eq_some_iff (upToDate : state.UpToDate) {start : Nat} :
    state.admission = some start ↔
      state.now ≤ start ∧ 0 < (state.advance start).free ∧
        ∀ time, state.now ≤ time → time < start → (state.advance time).free = 0 := by
  unfold admission
  by_cases available : 0 < state.free
  · rw [if_pos available, Option.some.injEq]
    constructor
    · rintro rfl
      exact ⟨le_rfl, free_pos_iff.mpr (.inl available), fun time late early => by omega⟩
    · rintro ⟨late, _, none_before⟩
      by_contra different
      have empty := none_before state.now le_rfl (by omega)
      rw [upToDate.free_advance_now] at empty
      omega
  · rw [if_neg available, List.min?_eq_some_iff]
    constructor
    · rintro ⟨mem, least⟩
      refine ⟨(upToDate start mem).le, free_pos_iff.mpr (.inr ⟨start, mem, le_rfl⟩), ?_⟩
      intro time _ early
      refine free_eq_zero_iff.mpr ⟨by omega, ?_⟩
      intro finish finishMem
      exact early.trans_le (least finish finishMem)
    · rintro ⟨late, free, none_before⟩
      have least : ∀ finish ∈ state.running, start ≤ finish := by
        intro finish mem
        by_contra early
        have empty := none_before finish (upToDate finish mem).le (not_le.mp early)
        exact absurd ((free_eq_zero_iff.mp empty).2 finish mem) (lt_irrefl finish)
      rcases free_pos_iff.mp free with now | ⟨finish, mem, ended⟩
      · exact absurd now available
      · have same : finish = start := le_antisymm ended (least finish mem)
        rw [← same] at least ⊢
        exact ⟨mem, least⟩

end State

variable {σ : Type} {service : Service σ} {state : State}

/-- An encode is handed over at the first moment at which a permit is free, unless the request has
been given up by then. -/
theorem entry_eq_some_iff (upToDate : state.UpToDate) {start : Nat} :
    service.entry state = some start ↔
      state.now ≤ start ∧ start ≤ service.deadline state ∧ 0 < (state.advance start).free ∧
        ∀ time, state.now ≤ time → time < start → (state.advance time).free = 0 := by
  rw [entry, Option.filter_eq_some_iff, State.admission_eq_some_iff upToDate, decide_eq_true_eq]
  constructor
  · rintro ⟨⟨late, free, none_before⟩, early⟩
    exact ⟨late, early, free, none_before⟩
  · rintro ⟨late, early, free, none_before⟩
    exact ⟨⟨late, free, none_before⟩, early⟩

theorem entry_eq_none_iff (upToDate : state.UpToDate) :
    service.entry state = none ↔
      ∀ time, state.now ≤ time → time ≤ service.deadline state →
        (state.advance time).free = 0 := by
  constructor
  · intro never
    -- At a first moment with a free permit the encode would be handed over.
    classical
    by_contra some_free
    push Not at some_free
    have least := Nat.find_spec some_free
    have begins : service.entry state = some (Nat.find some_free) := by
      refine (entry_eq_some_iff upToDate).mpr
        ⟨least.1, least.2.1, Nat.pos_of_ne_zero least.2.2, ?_⟩
      intro time late early
      by_contra free
      exact Nat.find_min some_free early ⟨late, early.le.trans least.2.1, free⟩
    rw [never] at begins
    cases begins
  · intro none_free
    cases begins : service.entry state with
    | none => rfl
    | some start =>
        rcases (entry_eq_some_iff upToDate).mp begins with ⟨late, early, free, _⟩
        exact absurd (none_free start late early) free.ne'

end Service

end TextVectors
