import LedSequencer.Sequence
import Mathlib.Data.List.Induction

/-! # Pushes

  A sequence is made by pushing operations one after the other, whatever becomes of each
  push. `Sequence.fills_up` says which pushes are accepted and what the sequence is in
  the end: the operations that came first, as many as there are places, and a `rewind`.

  * **Single pushes**: when a push is accepted, and what it adds.
  * **Lists of pushes**: what has been stored after each of them.
  * **Finished sequences**: where their `rewind` is, and which of them are idle.
-/

namespace LedSequencer

namespace Sequence

/-! ### Single pushes -/

theorem push_rewind (s : Sequence) : s.push .rewind = .ok s := dif_pos rfl

theorem push_of_lt {s : Sequence} {op : Operation} (hop : op ≠ .rewind)
    (hs : s.length < capacity) :
    ∃ t, s.push op = .ok t ∧ t.body = s.body.push op := by
  have hroom : s.body.size + 1 < capacity := hs
  unfold push
  rw [dif_neg hop, dif_pos hroom]
  exact ⟨_, rfl, rfl⟩

theorem push_of_le {s : Sequence} {op : Operation} (hop : op ≠ .rewind)
    (hs : capacity ≤ s.length) : s.push op = .error .capacityExceeded := by
  have hfull : ¬ s.body.size + 1 < capacity := Nat.not_lt.2 hs
  unfold push
  rw [dif_neg hop, dif_neg hfull]

theorem pushOrKeep_of_ok {s t : Sequence} {op : Operation} (h : s.push op = .ok t) :
    s.pushOrKeep op = t := by
  unfold pushOrKeep
  rw [h]

theorem pushOrKeep_of_error {s : Sequence} {op : Operation} {error : SequenceError}
    (h : s.push op = .error error) : s.pushOrKeep op = s := by
  unfold pushOrKeep
  rw [h]

/-- A push is accepted when there is nothing to store, or a place to store it. -/
theorem exists_push_iff {s : Sequence} {op : Operation} :
    (∃ t, s.push op = .ok t) ↔ op = .rewind ∨ s.length < capacity := by
  by_cases hop : op = .rewind
  · subst hop
    exact ⟨fun _ => .inl rfl, fun _ => ⟨s, s.push_rewind⟩⟩
  by_cases hroom : s.length < capacity
  · obtain ⟨t, ht, _⟩ := push_of_lt hop hroom
    exact ⟨fun _ => .inr hroom, fun _ => ⟨t, ht⟩⟩
  · have hrefused := push_of_le hop (Nat.le_of_not_lt hroom)
    refine ⟨?_, fun h => (h.elim hop hroom).elim⟩
    rintro ⟨t, ht⟩
    rw [hrefused] at ht
    cases ht

/-! ### Lists of pushes -/

/-- The operations that are to be stored: every sequence has its one `rewind` anyway. -/
def proper (ops : List Operation) : List Operation := ops.filter fun op => op ≠ .rewind

theorem proper_append (ops more : List Operation) :
    proper (ops ++ more) = proper ops ++ proper more := List.filter_append ..

theorem proper_rewind : proper [.rewind] = [] := rfl

theorem proper_singleton {op : Operation} (hop : op ≠ .rewind) : proper [op] = [op] := by
  simp [proper, hop]

theorem proper_eq_self {ops : List Operation} (hops : .rewind ∉ ops) : proper ops = ops := by
  apply List.filter_eq_self.2
  intro op hop
  have hne : op ≠ .rewind := fun heq => hops (heq ▸ hop)
  exact decide_eq_true hne

theorem proper_eq_nil_iff {ops : List Operation} :
    proper ops = [] ↔ ∀ op ∈ ops, op = .rewind := by
  simp [proper]

/-- Appends operations in order; those for which no place is left are dropped. -/
def extend (s : Sequence) (ops : List Operation) : Sequence := ops.foldl pushOrKeep s

@[simp] theorem extend_nil (s : Sequence) : s.extend [] = s := rfl

theorem extend_cons_of_push {s t : Sequence} {op : Operation} (h : s.push op = .ok t)
    (ops : List Operation) : s.extend (op :: ops) = t.extend ops := by
  unfold extend
  rw [List.foldl_cons, pushOrKeep_of_ok h]

theorem ofList_append_singleton (ops : List Operation) (op : Operation) :
    ofList (ops ++ [op]) = (ofList ops).pushOrKeep op := List.foldl_append ..

/-- A push stores its operation at the end, unless that would be one operation too many. -/
theorem toList_body_pushOrKeep (s : Sequence) (op : Operation) :
    (s.pushOrKeep op).body.toList = (s.body.toList ++ proper [op]).take (capacity - 1) := by
  have hsize : s.body.toList.length + 1 ≤ capacity := s.length_le
  by_cases hop : op = .rewind
  · subst hop
    rw [pushOrKeep_of_ok s.push_rewind, proper_rewind, List.append_nil,
      List.take_of_length_le (by omega)]
  rw [proper_singleton hop]
  by_cases hroom : s.length < capacity
  · obtain ⟨t, ht, hbody⟩ := push_of_lt hop hroom
    have hfits : (s.body.toList ++ [op]).length ≤ capacity - 1 := by
      have hlt : s.body.toList.length + 1 < capacity := hroom
      rw [List.length_append, List.length_singleton]
      omega
    rw [pushOrKeep_of_ok ht, hbody, Array.toList_push, List.take_of_length_le hfits]
  · have hfull : capacity ≤ s.length := Nat.le_of_not_lt hroom
    have hlength : s.body.toList.length = capacity - 1 := by
      have hle : capacity ≤ s.body.toList.length + 1 := hfull
      omega
    rw [pushOrKeep_of_error (push_of_le hop hfull), ← hlength, List.take_left]

/-- What has been stored after pushes are the operations that came first. -/
theorem toList_body_ofList (ops : List Operation) :
    (ofList ops).body.toList = (proper ops).take (capacity - 1) := by
  induction ops using List.reverseRecOn with
  | nil => rfl
  | append_singleton ops op ih =>
    rw [ofList_append_singleton, toList_body_pushOrKeep, ih, proper_append]
    by_cases hle : (proper ops).length ≤ capacity - 1
    · rw [List.take_of_length_le hle]
    · -- the sequence was full before
      have hfull : capacity - 1 ≤ (proper ops).length := by omega
      have htaken : capacity - 1 ≤ ((proper ops).take (capacity - 1)).length :=
        Nat.le_of_eq (List.length_take_of_le hfull).symm
      rw [List.take_append_of_le_length htaken, List.take_take, Nat.min_self,
        List.take_append_of_le_length hfull]

/-- A list of operations that finds a place becomes the body of a sequence as it is. -/
theorem body_ofList {ops : List Operation} (hops : .rewind ∉ ops)
    (hlength : ops.length < capacity) : (ofList ops).body.toList = ops := by
  have hle : ops.length ≤ capacity - 1 := Nat.le_pred_of_lt hlength
  rw [toList_body_ofList, proper_eq_self hops, List.take_of_length_le hle]

/-- There is a place after pushes when fewer operations than places came. -/
theorem length_ofList_lt_iff (ops : List Operation) :
    (ofList ops).length < capacity ↔ (proper ops).length < capacity - 1 := by
  have hlength : (ofList ops).length = ((proper ops).take (capacity - 1)).length + 1 := by
    rw [← toList_body_ofList, Array.length_toList]
    rfl
  rw [hlength, List.length_take]
  omega

/-! ### Finished sequences -/

/-- Every sequence rewinds at its last place, and past it. -/
theorem get_eq_rewind_iff_le (s : Sequence) (i : Nat) : s.get i = .rewind ↔ s.length - 1 ≤ i := by
  have hlength : s.length - 1 = s.body.size := Nat.add_sub_cancel ..
  rw [hlength]
  unfold get
  by_cases hi : i < s.body.size
  · rw [Array.getElem?_eq_getElem hi, Option.getD_some]
    refine ⟨fun hrewind => ?_, fun hle => absurd hi (Nat.not_lt.2 hle)⟩
    exact absurd (hrewind ▸ Array.getElem_mem hi) s.rewind_notMem
  · have hle : s.body.size ≤ i := Nat.le_of_not_lt hi
    rw [Array.getElem?_eq_none hle]
    exact ⟨fun _ => hle, fun _ => rfl⟩

/-- An operation of a sequence is in its body, or it is the `rewind`. -/
theorem get_mem_or_eq (s : Sequence) (i : Nat) : s.get i ∈ s.body ∨ s.get i = .rewind := by
  unfold get
  cases h : s.body[i]? with
  | none => exact .inr rfl
  | some op => exact .inl (Array.mem_of_getElem? h)

theorem rewind_notMem_toList (s : Sequence) : .rewind ∉ s.body.toList := by
  rw [Array.mem_toList_iff]
  exact s.rewind_notMem

theorem count_rewind_operations (s : Sequence) : s.operations.count .rewind = 1 := by
  rw [operations, List.count_append, List.count_eq_zero_of_not_mem s.rewind_notMem_toList,
    List.count_singleton_self]

theorem getLast?_operations (s : Sequence) : s.operations.getLast? = some .rewind :=
  List.getLast?_concat

theorem isStatic_iff (s : Sequence) :
    s.isStatic = true ↔ ∀ op ∈ s.body.toList, op.isPause = false := by
  rw [s.isStatic_eq, ← Array.all_toList, List.all_eq_true]
  simp only [Bool.not_eq_true']

/-- A sequence with nothing in its body is the idle one. -/
theorem eq_idle_iff (s : Sequence) : s = idle ↔ s.body.toList = [] := by
  refine ⟨fun h => h ▸ rfl, fun hnil => ?_⟩
  obtain ⟨body, isStatic, size_lt, rewind_notMem, isStatic_eq⟩ := s
  obtain rfl : body = #[] := Array.toList_eq_nil_iff.1 hnil
  obtain rfl : isStatic = true := isStatic_eq.trans (by simp)
  rfl

theorem isEmpty_iff (s : Sequence) : s.isEmpty = true ↔ s = idle := by
  have hlength : s.length = s.body.toList.length + 1 := rfl
  rw [eq_idle_iff, isEmpty, decide_eq_true_iff, hlength, ← List.length_eq_zero_iff]
  omega

/-- **Pushes fill a sequence up.** Operations are pushed in order. A push is accepted exactly when
    it is a `rewind`, or fewer than 999 operations other than `rewind` came before it; one that is
    refused changes nothing, and the cause is that the capacity is exceeded. The sequence that the
    pushes make holds the first 999 operations other than `rewind`, and one `rewind` at its end. It
    is static exactly when none of those that it holds waits, it rewinds at its last place and past
    it and nowhere else, and it is empty exactly when it is the idle sequence, which is when nothing
    but `rewind` was pushed. -/
theorem fills_up (ops : List Operation) :
    let s := ofList ops
    let stored := (proper ops).take 999
    (∀ i : Fin ops.length,
      let op := ops.get i
      let before := ofList (ops.take i)
      let after := ofList (ops.take (i + 1))
      ((∃ t, before.push op = .ok t) ↔
        op = .rewind ∨ (proper (ops.take i)).length < 999) ∧
      match before.push op with
      | .ok t => after = t
      | .error error => after = before ∧ error = .capacityExceeded) ∧
    s.operations = stored ++ [.rewind] ∧
    s.length = stored.length + 1 ∧ s.length ≤ 1000 ∧
    s.operations.count .rewind = 1 ∧ s.operations.getLast? = some .rewind ∧
    (s.isStatic = true ↔ ∀ op ∈ stored, op.isPause = false) ∧
    (∀ i, s.get i = .rewind ↔ s.length - 1 ≤ i) ∧
    (s.isEmpty = true ↔ s = idle) ∧
    (s = idle ↔ ∀ op ∈ ops, op = .rewind) := by
  intro s stored
  have hbody : s.body.toList = stored := toList_body_ofList ops
  refine ⟨?_, ?_, ?_, s.length_le, s.count_rewind_operations, s.getLast?_operations, ?_,
    s.get_eq_rewind_iff_le, s.isEmpty_iff, ?_⟩
  · intro i op before after
    have hafter : after = before.pushOrKeep op := by
      have htake : ops.take (i + 1) = ops.take i ++ [op] :=
        List.take_succ_eq_append_getElem i.isLt
      show ofList (ops.take (i + 1)) = _
      rw [htake]
      exact ofList_append_singleton _ _
    refine ⟨?_, ?_⟩
    · rw [exists_push_iff]
      exact or_congr_right (length_ofList_lt_iff _)
    · rw [hafter]
      cases hpush : before.push op with
      | ok t => exact pushOrKeep_of_ok hpush
      | error error =>
        refine ⟨pushOrKeep_of_error hpush, ?_⟩
        cases error
        rfl
  · rw [operations, hbody]
  · rw [← hbody]
    rfl
  · rw [← hbody]
    exact s.isStatic_iff
  · rw [eq_idle_iff, hbody, List.take_eq_nil_iff, proper_eq_nil_iff]
    exact or_iff_right (by decide)

end Sequence

end LedSequencer
