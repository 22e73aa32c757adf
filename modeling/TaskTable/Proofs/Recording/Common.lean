import Mathlib.Data.List.Infix
import TaskTable.Recording.Diff

/-!
# What two lists have in common

The length of a longest common subsequence, by recursion on both lists, and the two ways in which
the comparison of transcripts computes it: row by row (`frontRow_eq`, `backRow_eq`), and by cutting
both lists in two at the best place (`commonLength_cut`).
-/

namespace TaskTable
namespace Transcript

variable {α : Type}

/-- A longest one of the lists that are contained in two lists in order. -/
structure IsLongestCommon (c a b : List α) : Prop where
  left : c.Sublist a
  right : c.Sublist b
  longest : ∀ d : List α, d.Sublist a → d.Sublist b → d.length ≤ c.length

variable [DecidableEq α]

/-- The length of a longest list that is contained in two lists in order. -/
def commonLength : List α → List α → Nat
  | [], _ => 0
  | _ :: _, [] => 0
  | x :: xs, y :: ys =>
    if x = y then commonLength xs ys + 1
    else max (commonLength xs (y :: ys)) (commonLength (x :: xs) ys)

/-! ## The recursion counts common subsequences -/

@[simp] theorem commonLength_nil_left (b : List α) : commonLength [] b = 0 := by
  rw [commonLength]

@[simp] theorem commonLength_nil_right (a : List α) : commonLength a [] = 0 := by
  cases a <;> rw [commonLength]

/-- No common subsequence is longer. -/
theorem length_le_commonLength {a b c : List α} (ha : c.Sublist a) (hb : c.Sublist b) :
    c.length ≤ commonLength a b := by
  fun_induction commonLength a b generalizing c with
  | case1 b =>
    rw [List.sublist_nil.1 ha]
    exact Nat.le_refl 0
  | case2 x xs =>
    rw [List.sublist_nil.1 hb]
    exact Nat.le_refl 0
  | case3 xs y ys ih =>
    -- at most the first item of `c` is the one that both lists begin with
    have hrest := ih ha.tail hb.tail
    rw [List.length_tail] at hrest
    omega
  | case4 x xs y ys hne ihleft ihright =>
    rcases List.sublist_cons_iff.1 ha with ha' | ⟨r, rfl, hr⟩
    · have hle := ihleft ha' hb
      omega
    · -- `c` begins with `x`, so it does not use the `y` at the front of the second list
      rcases List.sublist_cons_iff.1 hb with hb' | ⟨r', heq, -⟩
      · have hle := ihright ha hb'
        omega
      · injection heq with hxy
        exact absurd hxy hne

/-- Some common subsequence is as long. -/
theorem exists_common (a b : List α) :
    ∃ c : List α, c.Sublist a ∧ c.Sublist b ∧ c.length = commonLength a b := by
  fun_induction commonLength a b with
  | case1 b => exact ⟨[], List.nil_sublist _, List.nil_sublist _, rfl⟩
  | case2 x xs => exact ⟨[], List.nil_sublist _, List.nil_sublist _, rfl⟩
  | case3 xs y ys ih =>
    obtain ⟨c, ha, hb, hlength⟩ := ih
    exact ⟨y :: c, ha.cons_cons y, hb.cons_cons y, by rw [List.length_cons, hlength]⟩
  | case4 x xs y ys hne ihleft ihright =>
    obtain ⟨c, hca, hcb, hc⟩ := ihleft
    obtain ⟨d, hda, hdb, hd⟩ := ihright
    rcases Nat.le_total (commonLength xs (y :: ys)) (commonLength (x :: xs) ys) with hle | hle
    · exact ⟨d, hda, hdb.cons y, by omega⟩
    · exact ⟨c, hca.cons x, hcb, by omega⟩

/-- A number that bounds all common subsequences is a bound of the length. -/
theorem commonLength_le {a b : List α} {n : Nat}
    (h : ∀ c : List α, c.Sublist a → c.Sublist b → c.length ≤ n) : commonLength a b ≤ n := by
  obtain ⟨c, ha, hb, hlength⟩ := exists_common a b
  rw [← hlength]
  exact h c ha hb

/-- A common subsequence of that length is a longest one. -/
theorem isLongestCommon_of_length {a b c : List α} (ha : c.Sublist a) (hb : c.Sublist b)
    (h : commonLength a b = c.length) : IsLongestCommon c a b := by
  refine ⟨ha, hb, ?_⟩
  intro d hda hdb
  rw [← h]
  exact length_le_commonLength hda hdb

/-! ## Both lists backwards -/

theorem commonLength_reverse_le (a b : List α) :
    commonLength a.reverse b.reverse ≤ commonLength a b := by
  apply commonLength_le
  intro c ha hb
  have ha' : c.reverse.Sublist a := by
    rw [← List.reverse_sublist, List.reverse_reverse]
    exact ha
  have hb' : c.reverse.Sublist b := by
    rw [← List.reverse_sublist, List.reverse_reverse]
    exact hb
  have hle := length_le_commonLength ha' hb'
  rw [List.length_reverse] at hle
  exact hle

/-- Two lists have as much in common backwards as forwards. -/
theorem commonLength_reverse (a b : List α) :
    commonLength a.reverse b.reverse = commonLength a b := by
  apply Nat.le_antisymm (commonLength_reverse_le a b)
  have hle := commonLength_reverse_le a.reverse b.reverse
  rw [List.reverse_reverse, List.reverse_reverse] at hle
  exact hle

/-- The recursion, from the ends of the lists. -/
theorem commonLength_concat (a b : List α) (x y : α) :
    commonLength (a ++ [x]) (b ++ [y]) =
      if x = y then commonLength a b + 1
      else max (commonLength a (b ++ [y])) (commonLength (a ++ [x]) b) := by
  have hrec : commonLength (a ++ [x]) (b ++ [y]) =
      commonLength (x :: a.reverse) (y :: b.reverse) := by
    rw [← commonLength_reverse, List.reverse_concat, List.reverse_concat]
  rw [hrec, commonLength, commonLength_reverse]
  rw [← commonLength_reverse a (b ++ [y]), List.reverse_concat]
  rw [← commonLength_reverse (a ++ [x]) b, List.reverse_concat]

/-! ## Equal ends -/

theorem commonLength_append_left (p a b : List α) :
    commonLength (p ++ a) (p ++ b) = p.length + commonLength a b := by
  induction p with
  | nil => rw [List.nil_append, List.nil_append, List.length_nil, Nat.zero_add]
  | cons x p ih =>
    rw [List.cons_append, List.cons_append, commonLength, if_pos rfl, ih, List.length_cons]
    omega

theorem commonLength_append_right (a b s : List α) :
    commonLength (a ++ s) (b ++ s) = commonLength a b + s.length := by
  rw [← commonLength_reverse, List.reverse_append, List.reverse_append, commonLength_append_left,
    commonLength_reverse, List.length_reverse, Nat.add_comm]

/-- Lists without a common item have nothing in common. -/
theorem commonLength_of_disjoint {a b : List α} (h : ∀ x ∈ b, x ∉ a) : commonLength a b = 0 := by
  apply Nat.le_zero.1
  apply commonLength_le
  intro c ha hb
  cases c with
  | nil => exact Nat.le_refl 0
  | cons x c => exact absurd (ha.subset List.mem_cons_self) (h x (hb.subset List.mem_cons_self))

theorem commonLength_singleton {x : α} {b : List α} (h : x ∈ b) : commonLength [x] b = 1 := by
  apply Nat.le_antisymm
  · apply commonLength_le
    intro c ha _
    exact ha.length_le
  · exact length_le_commonLength (List.Sublist.refl [x]) (List.singleton_sublist.2 h)

/-! ## Cutting in two -/

/-- What the parts of two lists have in common, the lists have in common. -/
theorem commonLength_add_le (a₁ a₂ b₁ b₂ : List α) :
    commonLength a₁ b₁ + commonLength a₂ b₂ ≤ commonLength (a₁ ++ a₂) (b₁ ++ b₂) := by
  obtain ⟨c, hca, hcb, hc⟩ := exists_common a₁ b₁
  obtain ⟨d, hda, hdb, hd⟩ := exists_common a₂ b₂
  have hle := length_le_commonLength (hca.append hda) (hcb.append hdb)
  rw [List.length_append, hc, hd] at hle
  exact hle

/-- Some cut of the second list loses nothing that the two halves of the first one have in common
with it. -/
theorem exists_cut (a₁ a₂ b : List α) :
    ∃ k ≤ b.length, commonLength (a₁ ++ a₂) b ≤
      commonLength a₁ (b.take k) + commonLength a₂ (b.drop k) := by
  obtain ⟨c, ha, hb, hlength⟩ := exists_common (a₁ ++ a₂) b
  obtain ⟨c₁, c₂, rfl, ha₁, ha₂⟩ := List.sublist_append_iff.1 ha
  obtain ⟨b₁, b₂, rfl, hb₁, hb₂⟩ := List.append_sublist_iff.1 hb
  refine ⟨b₁.length, by rw [List.length_append]; omega, ?_⟩
  rw [← hlength, List.take_left, List.drop_left, List.length_append]
  exact Nat.add_le_add (length_le_commonLength ha₁ hb₁) (length_le_commonLength ha₂ hb₂)

/-! ## Rows -/

omit [DecidableEq α] in
theorem inits_eq_nil_cons (b : List α) : b.inits = [] :: b.inits.tail := by
  cases b with
  | nil => rfl
  | cons y ys => rw [List.inits_cons, List.tail_cons]

/-- A row continued: `pre` is the part of the second list whose column was made last. -/
theorem rowFrom_eq (a : List α) (x : α) (pre b : List α) :
    rowFrom x (commonLength (a ++ [x]) pre) b (b.inits.map fun i => commonLength a (pre ++ i)) =
      b.inits.tail.map fun i => commonLength (a ++ [x]) (pre ++ i) := by
  induction b generalizing pre with
  | nil => rfl
  | cons y ys ih =>
    -- the beginnings of `y :: ys` behind `pre` are those of `ys` behind `pre ++ [y]`
    have hshift : ∀ f : List α → Nat, (y :: ys).inits.tail.map (fun i => f (pre ++ i)) =
        ys.inits.map fun i => f (pre ++ [y] ++ i) := by
      intro f
      rw [List.inits_cons, List.tail_cons, List.map_map]
      simp [Function.comp_def]
    have hrest := ih (pre ++ [y])
    rw [hshift, inits_eq_nil_cons (y :: ys), List.map_cons, hshift]
    rw [inits_eq_nil_cons ys, List.map_cons] at hrest ⊢
    rw [List.tail_cons] at hrest
    rw [rowFrom, List.map_cons, List.append_nil, List.append_nil, ← commonLength_concat]
    rw [List.append_nil] at hrest
    rw [hrest]

theorem nextRow_eq (a : List α) (x : α) (b : List α) :
    nextRow x b (b.inits.map (commonLength a)) = b.inits.map (commonLength (a ++ [x])) := by
  have hrow := rowFrom_eq a x [] b
  rw [commonLength_nil_right] at hrow
  simp only [List.nil_append] at hrow
  rw [nextRow, hrow, inits_eq_nil_cons b, List.map_cons, List.tail_cons, commonLength_nil_right]

/-- The first row of the comparison: what a list has in common with each beginning of another. -/
theorem frontRow_eq (a b : List α) : frontRow a b = b.inits.map (commonLength a) := by
  induction a using List.reverseRecOn with
  | nil =>
    have hzero : commonLength ([] : List α) = fun _ => 0 := funext commonLength_nil_left
    rw [hzero, List.map_const', List.length_inits]
    rfl
  | append_singleton a x ih =>
    have hstep : frontRow (a ++ [x]) b = nextRow x b (frontRow a b) := by
      unfold frontRow
      rw [List.foldl_append]
      rfl
    rw [hstep, ih, nextRow_eq]

/-- The second row of the comparison: what a list has in common with each end of another. -/
theorem backRow_eq (a b : List α) : backRow a b = b.tails.map (commonLength a) := by
  unfold backRow
  rw [frontRow_eq, List.inits_reverse, List.map_reverse, List.reverse_reverse, List.map_map]
  apply List.map_congr_left
  intro t _
  exact commonLength_reverse a t

/-! ## The best cut -/

/-- The place of the largest number holds a number that no other exceeds. -/
theorem firstMaxIdx_spec {l : List Nat} (hne : l ≠ []) :
    ∃ m, l[firstMaxIdx l]? = some m ∧ ∀ n ∈ l, n ≤ m := by
  induction l with
  | nil => exact absurd rfl hne
  | cons n ns ih =>
    rw [firstMaxIdx]
    cases hmax : ns.max? with
    | none =>
      have hns : ns = [] := List.max?_eq_none_iff.1 hmax
      subst hns
      exact ⟨n, rfl, by simp⟩
    | some m =>
      obtain ⟨hmem, hle⟩ := List.max?_eq_some_iff.1 hmax
      by_cases hmn : m ≤ n
      · refine ⟨n, by simp [hmn], ?_⟩
        intro k hk
        rcases List.mem_cons.1 hk with rfl | hk
        · exact Nat.le_refl _
        · exact Nat.le_trans (hle k hk) hmn
      · obtain ⟨m', hget, hall⟩ := ih (List.ne_nil_of_mem hmem)
        refine ⟨m', by simp [hmn, hget], ?_⟩
        have hmm' := hall m hmem
        intro k hk
        rcases List.mem_cons.1 hk with rfl | hk
        · omega
        · exact hall k hk

/-- What both parts have in common when the second list is cut at `k`. -/
def commonAt (a₁ a₂ b : List α) (k : Nat) : Nat :=
  commonLength a₁ (b.take k) + commonLength a₂ (b.drop k)

/-- The two rows add up to what both parts have in common at each cut. -/
theorem zipWith_rows (a₁ a₂ b : List α) :
    List.zipWith (· + ·) (frontRow a₁ b) (backRow a₂ b) =
      (List.range (b.length + 1)).map (commonAt a₁ a₂ b) := by
  rw [frontRow_eq, backRow_eq]
  apply List.ext_getElem
  · simp
  · intro k hk hk'
    simp [commonAt]

/-- Nothing common is lost at the cut that is made. -/
theorem commonLength_cut (a₁ a₂ b : List α) :
    commonLength (a₁ ++ a₂) b =
      commonLength a₁ (b.take (cut a₁ a₂ b)) + commonLength a₂ (b.drop (cut a₁ a₂ b)) := by
  apply Nat.le_antisymm
  · obtain ⟨m, hget, hall⟩ := firstMaxIdx_spec (l := (List.range (b.length + 1)).map
      (commonAt a₁ a₂ b)) (by simp)
    obtain ⟨k, hk, hle⟩ := exists_cut a₁ a₂ b
    have hbest := hall _ (List.mem_map_of_mem (List.mem_range.2 (Nat.lt_succ_of_le hk)))
    have hm : m = commonAt a₁ a₂ b (cut a₁ a₂ b) := by
      unfold cut
      rw [zipWith_rows]
      rw [List.getElem?_map, Option.map_eq_some_iff] at hget
      obtain ⟨i, hi, rfl⟩ := hget
      obtain ⟨_, rfl⟩ := List.getElem?_eq_some_iff.1 hi
      rw [List.getElem_range]
    rw [hm] at hbest
    exact Nat.le_trans hle hbest
  · have hle := commonLength_add_le a₁ a₂ (b.take (cut a₁ a₂ b)) (b.drop (cut a₁ a₂ b))
    rw [List.take_append_drop] at hle
    exact hle

end Transcript
end TaskTable
