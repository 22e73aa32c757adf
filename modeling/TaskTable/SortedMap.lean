/-!
# Sorted maps

Finite maps with their keys in ascending order. The order is part of the type, so a map has one
representation only: two maps with the same entries are equal, and writing one down always gives the
same text.
-/

namespace TaskTable

/-- A finite map from `κ` to `α`, kept in ascending order of its keys. -/
structure SortedMap (κ α : Type) [LT κ] where
  entries : List (κ × α)
  ascending : entries.Pairwise (fun a b => a.1 < b.1)

namespace SortedMap

variable {κ α β : Type}

section Lists

variable [LT κ] [DecidableLT κ] [DecidableEq κ]

/-- Entries with `k` bound to `a`, in ascending order if they were so before. -/
def insertEntry (k : κ) (a : α) : List (κ × α) → List (κ × α)
  | [] => [(k, a)]
  | (k', a') :: rest =>
    if k < k' then (k, a) :: (k', a') :: rest
    else if k = k' then (k, a) :: rest
    else (k', a') :: insertEntry k a rest

/-- The value at `k` in a list of entries. -/
def lookupEntry (k : κ) : List (κ × α) → Option α
  | [] => none
  | (k', a) :: rest => if k = k' then some a else lookupEntry k rest

theorem mem_insertEntry {k : κ} {a : α} {e : κ × α} {l : List (κ × α)}
    (h : e ∈ insertEntry k a l) : e = (k, a) ∨ e ∈ l := by
  induction l with
  | nil => simpa [insertEntry] using h
  | cons hd tl ih =>
    obtain ⟨k', a'⟩ := hd
    rw [insertEntry] at h
    split at h
    · simpa using h
    · split at h
      · rcases List.mem_cons.1 h with rfl | hm
        · exact .inl rfl
        · exact .inr (List.mem_cons_of_mem _ hm)
      · rcases List.mem_cons.1 h with rfl | hm
        · exact .inr List.mem_cons_self
        · exact (ih hm).imp_right (List.mem_cons_of_mem _)

theorem lookupEntry_insertEntry_self (k : κ) (a : α) (l : List (κ × α)) :
    lookupEntry k (insertEntry k a l) = some a := by
  induction l with
  | nil => simp [insertEntry, lookupEntry]
  | cons hd tl ih =>
    obtain ⟨k', a'⟩ := hd
    rw [insertEntry]
    split
    · simp [lookupEntry]
    · split
      · simp [lookupEntry]
      · rename_i h
        simp [lookupEntry, h, ih]

theorem lookupEntry_insertEntry_of_ne {k k' : κ} (h : k' ≠ k) (a : α) (l : List (κ × α)) :
    lookupEntry k' (insertEntry k a l) = lookupEntry k' l := by
  induction l with
  | nil => simp [insertEntry, lookupEntry, h]
  | cons hd tl ih =>
    obtain ⟨k'', a''⟩ := hd
    rw [insertEntry]
    split
    · simp [lookupEntry, h]
    · split
      · rename_i e
        simp [lookupEntry, h, e ▸ h]
      · simp [lookupEntry, ih]

theorem length_insertEntry {k : κ} {l : List (κ × α)} (h : lookupEntry k l = none) (a : α) :
    (insertEntry k a l).length = l.length + 1 := by
  induction l with
  | nil => rfl
  | cons hd tl ih =>
    obtain ⟨k', a'⟩ := hd
    rw [lookupEntry] at h
    rw [insertEntry]
    split
    · rfl
    · split
      · next hk => rw [if_pos hk] at h; cases h
      · next hk =>
        rw [if_neg hk] at h
        rw [List.length_cons, ih h, List.length_cons]

theorem insertEntry_map (f : α → β) (k : κ) (a : α) (l : List (κ × α)) :
    insertEntry k (f a) (l.map fun e => (e.1, f e.2)) =
      (insertEntry k a l).map fun e => (e.1, f e.2) := by
  induction l with
  | nil => rfl
  | cons hd tl ih =>
    obtain ⟨k', a'⟩ := hd
    simp only [List.map_cons, insertEntry, ih]
    split
    · rfl
    · split <;> rfl

omit [LT κ] [DecidableLT κ] in
theorem lookupEntry_map (f : α → β) (k : κ) (l : List (κ × α)) :
    lookupEntry k (l.map fun e => (e.1, f e.2)) = (lookupEntry k l).map f := by
  induction l with
  | nil => rfl
  | cons hd tl ih =>
    obtain ⟨k', a⟩ := hd
    simp only [List.map_cons, lookupEntry, ih]
    split <;> rfl

omit [LT κ] [DecidableLT κ] in
theorem lookupEntry_isSome {k : κ} {l : List (κ × α)} :
    (lookupEntry k l).isSome ↔ k ∈ l.map (·.1) := by
  induction l with
  | nil => simp [lookupEntry]
  | cons hd tl ih =>
    obtain ⟨k', a⟩ := hd
    rw [lookupEntry]
    by_cases h : k = k' <;> simp [h, ih]

end Lists

variable [LE κ] [LT κ] [Std.IsLinearOrder κ] [Std.LawfulOrderLT κ] [DecidableLT κ] [DecidableEq κ]

omit [DecidableLT κ] [DecidableEq κ] in
private theorem lt_of_not_lt_of_ne {a b : κ} (h : ¬ a < b) (hne : a ≠ b) : b < a := by
  rcases Std.Trichotomous.rel_or_eq_or_rel_swap (r := fun x y : κ => x < y) (a := a) (b := b) with
    h' | h' | h'
  · exact absurd h' h
  · exact absurd h' hne
  · exact h'

theorem ascending_insertEntry (k : κ) (a : α) {l : List (κ × α)}
    (h : l.Pairwise (fun x y => x.1 < y.1)) :
    (insertEntry k a l).Pairwise (fun x y => x.1 < y.1) := by
  induction l with
  | nil => simp [insertEntry]
  | cons hd tl ih =>
    obtain ⟨k', a'⟩ := hd
    have htl := List.pairwise_cons.1 h
    rw [insertEntry]
    split
    · rename_i hlt
      refine List.pairwise_cons.2 ⟨fun e he => ?_, h⟩
      rcases List.mem_cons.1 he with rfl | hm
      · exact hlt
      · exact Std.lt_trans hlt (htl.1 e hm)
    · rename_i hge
      split
      · rename_i heq
        exact List.pairwise_cons.2 ⟨fun e he => heq ▸ htl.1 e he, htl.2⟩
      · rename_i hne
        refine List.pairwise_cons.2 ⟨fun e he => ?_, ih htl.2⟩
        rcases mem_insertEntry he with rfl | hm
        · exact lt_of_not_lt_of_ne hge hne
        · exact htl.1 e hm

/-- The map without entries. -/
def empty : SortedMap κ α :=
  ⟨[], List.Pairwise.nil⟩

instance : EmptyCollection (SortedMap κ α) := ⟨empty⟩

instance : Inhabited (SortedMap κ α) := ⟨empty⟩

instance [DecidableEq α] : DecidableEq (SortedMap κ α) := fun m n =>
  if h : m.entries = n.entries then
    .isTrue (by cases m; cases n; cases h; rfl)
  else
    .isFalse fun e => h (e ▸ rfl)

/-- The map with `k` bound to `a`. -/
def insert (m : SortedMap κ α) (k : κ) (a : α) : SortedMap κ α :=
  ⟨insertEntry k a m.entries, ascending_insertEntry k a m.ascending⟩

/-- The value at `k`. -/
def get? (m : SortedMap κ α) (k : κ) : Option α :=
  lookupEntry k m.entries

/-- The value at `k`, or `d` without one. -/
def getD (m : SortedMap κ α) (k : κ) (d : α) : α :=
  (m.get? k).getD d

/-- Whether `k` is bound. -/
def contains (m : SortedMap κ α) (k : κ) : Bool :=
  (m.get? k).isSome

/-- The map without `k`. -/
def erase (m : SortedMap κ α) (k : κ) : SortedMap κ α :=
  ⟨m.entries.filter (fun e => e.1 ≠ k), m.ascending.filter _⟩

/-- The map with entries taken from a list; of two entries with one key the later one counts. -/
def ofList (l : List (κ × α)) : SortedMap κ α :=
  l.foldl (fun m e => m.insert e.1 e.2) empty

/-- The map with every value passed through `f`. -/
def mapValues (f : α → β) (m : SortedMap κ α) : SortedMap κ β :=
  ⟨m.entries.map fun e => (e.1, f e.2), m.ascending.map _ fun _ _ h => h⟩

/-- The keys in ascending order. -/
def keys (m : SortedMap κ α) : List κ :=
  m.entries.map (·.1)

/-- The number of entries. -/
def size (m : SortedMap κ α) : Nat :=
  m.entries.length

/-- Whether the map has no entries. -/
def isEmpty (m : SortedMap κ α) : Bool :=
  m.entries.isEmpty

omit [LE κ] [Std.IsLinearOrder κ] [Std.LawfulOrderLT κ] [DecidableLT κ] in
@[simp] theorem get?_empty (k : κ) : (empty : SortedMap κ α).get? k = none := rfl

@[simp] theorem get?_insert_self (m : SortedMap κ α) (k : κ) (a : α) :
    (m.insert k a).get? k = some a :=
  lookupEntry_insertEntry_self k a m.entries

theorem get?_insert_of_ne (m : SortedMap κ α) {k k' : κ} (h : k' ≠ k) (a : α) :
    (m.insert k a).get? k' = m.get? k' :=
  lookupEntry_insertEntry_of_ne h a m.entries

theorem get?_insert (m : SortedMap κ α) (k k' : κ) (a : α) :
    (m.insert k a).get? k' = if k' = k then some a else m.get? k' := by
  split
  · rename_i h
    rw [h, get?_insert_self]
  · rename_i h
    exact get?_insert_of_ne m h a

omit [LE κ] [Std.IsLinearOrder κ] [Std.LawfulOrderLT κ] [DecidableLT κ] in
theorem get?_erase (m : SortedMap κ α) (k k' : κ) :
    (m.erase k).get? k' = if k' = k then none else m.get? k' := by
  obtain ⟨l, hl⟩ := m
  simp only [get?, erase]
  clear hl
  induction l with
  | nil => simp [lookupEntry]
  | cons hd tl ih =>
    obtain ⟨k'', a⟩ := hd
    by_cases h : k'' = k
    · subst h
      rw [List.filter_cons_of_neg (by simp), ih]
      by_cases h' : k' = k'' <;> simp [lookupEntry, h']
    · rw [List.filter_cons_of_pos (by simpa using h), lookupEntry, lookupEntry, ih]
      by_cases h' : k' = k''
      · simp [h', h]
      · simp [h']

omit [LE κ] [Std.IsLinearOrder κ] [Std.LawfulOrderLT κ] [DecidableLT κ] in
/-- The keys are those at which there is a value. -/
theorem mem_keys {m : SortedMap κ α} {k : κ} : k ∈ m.keys ↔ (m.get? k).isSome :=
  lookupEntry_isSome.symm

omit [Std.IsLinearOrder κ] [DecidableLT κ] in
/-- Every entry is found under its key. -/
theorem get?_of_mem {m : SortedMap κ α} {e : κ × α} (h : e ∈ m.entries) :
    m.get? e.1 = some e.2 := by
  obtain ⟨l, hl⟩ := m
  simp only [get?] at h ⊢
  induction l with
  | nil => cases h
  | cons hd tl ih =>
    obtain ⟨hlt, htl⟩ := List.pairwise_cons.1 hl
    rw [lookupEntry]
    rcases List.mem_cons.1 h with rfl | h
    · exact if_pos rfl
    · -- the first key is below all others
      rw [if_neg fun hk => Std.lt_irrefl (hk ▸ hlt e h)]
      exact ih htl h

omit [LE κ] [Std.IsLinearOrder κ] [Std.LawfulOrderLT κ] [DecidableLT κ] in
/-- What is found under a key is an entry. -/
theorem mem_of_get? {m : SortedMap κ α} {k : κ} {a : α} (h : m.get? k = some a) :
    (k, a) ∈ m.entries := by
  obtain ⟨l, hl⟩ := m
  simp only [get?] at h ⊢
  clear hl
  induction l with
  | nil => cases h
  | cons hd tl ih =>
    obtain ⟨k', a'⟩ := hd
    rw [lookupEntry] at h
    split at h
    · next hk =>
      cases h
      exact hk ▸ List.mem_cons_self
    · exact List.mem_cons_of_mem _ (ih h)

omit [LE κ] [Std.IsLinearOrder κ] [Std.LawfulOrderLT κ] [DecidableLT κ] [DecidableEq κ] in
/-- Two maps with the same entries are equal. -/
theorem ext_entries {m n : SortedMap κ α} (h : m.entries = n.entries) : m = n := by
  cases m
  cases n
  cases h
  rfl

omit [LE κ] [Std.IsLinearOrder κ] [Std.LawfulOrderLT κ] [DecidableLT κ] in
@[simp] theorem get?_mapValues (f : α → β) (m : SortedMap κ α) (k : κ) :
    (m.mapValues f).get? k = (m.get? k).map f :=
  lookupEntry_map f k m.entries

theorem mapValues_insert (f : α → β) (m : SortedMap κ α) (k : κ) (a : α) :
    (m.insert k a).mapValues f = (m.mapValues f).insert k (f a) :=
  ext_entries (insertEntry_map f k a m.entries).symm

omit [LE κ] [Std.IsLinearOrder κ] [Std.LawfulOrderLT κ] [DecidableLT κ] [DecidableEq κ] in
/-- Values that pass through the same twice pass through it once. -/
theorem mapValues_mapValues_self {f : α → α} (h : ∀ a, f (f a) = f a) (m : SortedMap κ α) :
    (m.mapValues f).mapValues f = m.mapValues f := by
  refine ext_entries ?_
  simp only [mapValues, List.map_map, Function.comp_def, h]

omit [Std.IsLinearOrder κ] in
/-- An entry whose key is above all others comes last. -/
theorem insertEntry_last {k : κ} {l : List (κ × α)} (h : ∀ e ∈ l, e.1 < k) (a : α) :
    insertEntry k a l = l ++ [(k, a)] := by
  induction l with
  | nil => rfl
  | cons hd tl ih =>
    have hlt : hd.1 < k := h hd List.mem_cons_self
    rw [insertEntry, if_neg (Std.not_gt_of_lt hlt), if_neg (fun h => Std.lt_irrefl (h ▸ hlt)),
      ih fun e he => h e (List.mem_cons_of_mem _ he), List.cons_append]

/-- A map is made again from its entries. -/
theorem ofList_entries (m : SortedMap κ α) : ofList m.entries = m := by
  have hfold : ∀ (rest : List (κ × α)) (n : SortedMap κ α),
      (n.entries ++ rest).Pairwise (fun a b => a.1 < b.1) →
        (rest.foldl (fun m e => m.insert e.1 e.2) n).entries = n.entries ++ rest := by
    intro rest
    induction rest with
    | nil => exact fun n _ => (List.append_nil _).symm
    | cons e rest ih =>
      intro n hascending
      obtain ⟨-, -, hlt⟩ := List.pairwise_append.1 hascending
      have hinsert : (n.insert e.1 e.2).entries = n.entries ++ [e] :=
        insertEntry_last (fun e' he' => hlt e' he' e List.mem_cons_self) e.2
      rw [List.foldl_cons, ih, hinsert, List.append_assoc, List.singleton_append]
      rw [hinsert, List.append_assoc]
      exact hascending
  exact ext_entries (hfold m.entries empty m.ascending)

/-- A map that is made from entries has no others. -/
theorem mem_of_mem_ofList {l : List (κ × α)} {e : κ × α} (h : e ∈ (ofList l).entries) : e ∈ l := by
  have hfold : ∀ (l : List (κ × α)) (m : SortedMap κ α),
      e ∈ (l.foldl (fun m e => m.insert e.1 e.2) m).entries → e ∈ l ∨ e ∈ m.entries := by
    intro l
    induction l with
    | nil => exact fun m hm => .inr hm
    | cons e' rest ih =>
      intro m hm
      rcases ih _ hm with hrest | hmem
      · exact .inl (List.mem_cons_of_mem _ hrest)
      · rcases mem_insertEntry hmem with rfl | hold
        · exact .inl List.mem_cons_self
        · exact .inr hold
  rcases hfold l empty h with hl | hnone
  · exact hl
  · cases hnone

/-- Entries with distinct keys are all found, and nothing else is. -/
theorem get?_ofList_iff {l : List (κ × α)} (h : (l.map (·.1)).Nodup) {k : κ} {a : α} :
    (ofList l).get? k = some a ↔ (k, a) ∈ l := by
  have hfold : ∀ (l : List (κ × α)) (m : SortedMap κ α), (l.map (·.1)).Nodup →
      (∀ e ∈ l, m.get? e.1 = none) →
        ((l.foldl (fun m e => m.insert e.1 e.2) m).get? k = some a ↔
          (k, a) ∈ l ∨ m.get? k = some a) := by
    intro l
    induction l with
    | nil => exact fun m _ _ => by simp
    | cons e rest ih =>
      intro m hnodup hfresh
      obtain ⟨hne, hrest⟩ := List.nodup_cons.1 hnodup
      have hkey : ∀ e' ∈ rest, e'.1 ≠ e.1 :=
        fun e' he' heq => hne (List.mem_map.2 ⟨e', he', heq⟩)
      have hfresh' : ∀ e' ∈ rest, (m.insert e.1 e.2).get? e'.1 = none := by
        intro e' he'
        rw [get?_insert_of_ne m (hkey e' he')]
        exact hfresh e' (List.mem_cons_of_mem _ he')
      rw [List.foldl_cons, ih _ hrest hfresh', List.mem_cons, get?_insert]
      obtain ⟨k', a'⟩ := e
      by_cases hk : k = k'
      · -- the key is bound by this entry, and by no later one
        subst hk
        have hlater : (k, a) ∉ rest := fun hmem => hkey _ hmem rfl
        have hm : m.get? k = none := hfresh _ List.mem_cons_self
        simp [hlater, hm, eq_comm]
      · simp [hk]
  rw [ofList, hfold l empty h fun _ _ => rfl]
  simp

theorem size_insert {m : SortedMap κ α} {k : κ} (h : m.get? k = none) (a : α) :
    (m.insert k a).size = m.size + 1 :=
  length_insertEntry h a

/-- A map that is made from entries with distinct keys has as many. -/
theorem size_ofList {l : List (κ × α)} (h : (l.map (·.1)).Nodup) :
    (ofList l).size = l.length := by
  have hfold : ∀ (l : List (κ × α)) (m : SortedMap κ α), (l.map (·.1)).Nodup →
      (∀ e ∈ l, m.get? e.1 = none) →
        (l.foldl (fun m e => m.insert e.1 e.2) m).size = m.size + l.length := by
    intro l
    induction l with
    | nil => exact fun m _ _ => rfl
    | cons e rest ih =>
      intro m hnodup hfresh
      obtain ⟨hne, hrest⟩ := List.nodup_cons.1 hnodup
      have hfresh' : ∀ e' ∈ rest, (m.insert e.1 e.2).get? e'.1 = none := by
        intro e' he'
        have hkey : e'.1 ≠ e.1 := fun heq => hne (List.mem_map.2 ⟨e', he', heq⟩)
        rw [get?_insert_of_ne m hkey]
        exact hfresh e' (List.mem_cons_of_mem _ he')
      rw [List.foldl_cons, ih _ hrest hfresh', size_insert (hfresh e List.mem_cons_self),
        List.length_cons]
      omega
  exact (hfold l empty h fun _ _ => rfl).trans (Nat.zero_add _)

end SortedMap

end TaskTable
