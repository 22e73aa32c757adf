import TaskTable.Json.Decode
import TaskTable.Proofs.Json.ReadBack
import TaskTable.Proofs.Time.ReadBack

/-!
# Decoding what was stored

The readers that stored forms are put together from give back what was stored: records field by
field, maps entry by entry, lists item by item.
-/

namespace TaskTable
namespace Json

/-! ## Exact parts -/

theorem isExact_nat {n : Nat} (h : n < Number.twoPow 64) (levels : Nat) :
    (nat n).isExact levels = true := by
  simp only [nat, isExact, Bool.and_eq_true, decide_eq_true_eq]
  omega

theorem isExact_word32 {n : Nat} (h : n < Number.twoPow 32) (levels : Nat) :
    (nat n).isExact levels = true :=
  isExact_nat (Nat.lt_trans h (by decide)) levels

theorem isExact_option {α : Type} {f : α → Json} {a : Option α} {levels : Nat}
    (h : ∀ x ∈ a, (f x).isExact levels = true) : (option f a).isExact levels = true := by
  cases a with
  | none => rfl
  | some x => exact h x rfl

theorem isExact_list {α : Type} {f : α → Json} {l : List α} {levels : Nat}
    (h : ∀ x ∈ l, (f x).isExact levels = true) : (list f l).isExact (levels + 1) = true := by
  have hitems : areExact levels (l.map f) = true := by
    induction l with
    | nil => rfl
    | cons x l ih =>
      rw [List.map_cons, areExact, h x List.mem_cons_self,
        ih fun y hy => h y (List.mem_cons_of_mem _ hy)]
      rfl
  simpa [list, isExact] using hitems

theorem isExact_obj {fields : List (String × Json)} {levels : Nat}
    (h : ∀ e ∈ fields, e.2.isExact levels = true) :
    (obj fields).isExact (levels + 1) = true := by
  have hfields : areExactFields levels fields = true := by
    induction fields with
    | nil => rfl
    | cons e fields ih =>
      rw [areExactFields, h e List.mem_cons_self,
        ih fun e' he' => h e' (List.mem_cons_of_mem _ he')]
      rfl
  simpa [isExact] using hfields

theorem isExact_map {α : Type} {f : α → Json} {m : SortedMap String α} {levels : Nat}
    (h : ∀ e ∈ m.entries, (f e.2).isExact levels = true) :
    (map f m).isExact (levels + 1) = true := by
  refine isExact_obj fun e he => ?_
  obtain ⟨e', he', rfl⟩ := List.mem_map.1 he
  exact h e' he'

namespace Draft

/-! ## Free data -/

mutual

theorem toJson?_ofJson : (j : Json) → (ofJson j).toJson? = some j
  | .null | .bool _ | .int _ | .real _ | .str _ => rfl
  | .arr items => by rw [ofJson, toJson?, toItems?_ofItems items, Option.map_some]
  | .obj fields => by rw [ofJson, toJson?, toFields?_ofFields fields, Option.map_some]

theorem toItems?_ofItems : (as : List Json) → toItems? (ofItems as) = some as
  | [] => rfl
  | a :: as => by
    rw [ofItems, toItems?, toJson?_ofJson a, toItems?_ofItems as]
    rfl

theorem toFields?_ofFields : (es : List (String × Json)) → toFields? (ofFields es) = some es
  | [] => rfl
  | (k, a) :: es => by
    rw [ofFields, toFields?, toJson?_ofJson a, toFields?_ofFields es]
    rfl

end

/-- Values with whole numbers that are written alike are the same. -/
theorem toText_injective {i j : Json} (hi : i.isWhole = true) (hj : j.isWhole = true)
    (h : i.toText = j.toText) : i = j := by
  have hcompact : i.compact = j.compact := String.ofList_inj.1 h
  -- who follows all levels of both reads the one and the other
  have hread : ∀ a : Json, a.isWhole = true → a.depth ≤ max i.depth j.depth →
      readValue (a.compact.length + 1) (a.compact.length + 1) (max i.depth j.depth) a.compact =
        some (ofJson a, []) := fun a ha hdepth => by
    rw [readValue_chars ha, upTo_of_depth_le _ a hdepth]
  have hdraft := hread i hi (Nat.le_max_left _ _)
  rw [hcompact, hread j hj (Nat.le_max_right _ _), Option.some_inj, Prod.mk.injEq] at hdraft
  have hvalue : some j = some i := by
    rw [← toJson?_ofJson j, hdraft.1, toJson?_ofJson]
  exact (Option.some_inj.1 hvalue).symm

theorem ofItems_eq_map (as : List Json) : ofItems as = as.map ofJson := by
  induction as with
  | nil => rfl
  | cons a as ih => rw [ofItems, ih, List.map_cons]

theorem ofFields_eq_map (es : List (String × Json)) :
    ofFields es = es.map fun e => (e.1, ofJson e.2) := by
  induction es with
  | nil => rfl
  | cons e es ih => rw [ofFields, ih, List.map_cons]

/-! ## Parts -/

theorem toNat?_nat {n bound : Nat} (h : n < bound) : (ofJson (nat n)).toNat? bound = some n := by
  have hrange : (0 : Int) ≤ n ∧ (n : Int) < bound := by omega
  rw [nat, ofJson, toNat?, if_pos hrange, Int.toNat_natCast]

theorem toInstant?_toJson {t : Instant} (h : t.isExact = true) :
    (ofJson t.toJson).toInstant? = some t :=
  Instant.ofText?_toText h

/-- A value that may be missing is read back, if none of the values is written as `null`. -/
theorem optional_option {α : Type} {f : Draft → Option α} {g : α → Json}
    (hnull : ∀ x, g x ≠ .null) {a : Option α} (h : ∀ x ∈ a, f (ofJson (g x)) = some x) :
    optional f (some (ofJson (option g a))) = some a := by
  cases a with
  | none => rfl
  | some x =>
    have hdraft : ofJson (g x) ≠ null := by
      intro hx
      cases hg : g x with
      | null => exact hnull x hg
      | bool | int | real | str | arr | obj => rw [hg] at hx; simp [ofJson] at hx
    rw [optional, option, toOption?]
    · rw [h x rfl, Option.map_some]
    · exact fun hx => hdraft hx

/-- What is written item by item is read back item by item. -/
theorem mapM_map {α β : Type} {f : β → Option α} {g : α → β} {l : List α}
    (h : ∀ x ∈ l, f (g x) = some x) : (l.map g).mapM f = some l := by
  induction l with
  | nil => rfl
  | cons x l ih =>
    rw [List.map_cons, List.mapM_cons, h x List.mem_cons_self,
      ih fun y hy => h y (List.mem_cons_of_mem _ hy)]
    rfl

theorem toList?_list {α : Type} {f : Draft → Option α} {g : α → Json} {l : List α}
    (h : ∀ x ∈ l, f (ofJson (g x)) = some x) : (ofJson (list g l)).toList? f = some l := by
  rw [list, ofJson, toList?, ofItems_eq_map, List.map_map]
  exact mapM_map h

/-- One item that is not read is enough for none to be read. -/
theorem mapM_eq_none {α β : Type} {f : β → Option α} {l : List β} (h : ∃ x ∈ l, f x = none) :
    l.mapM f = none := by
  induction l with
  | nil => simp at h
  | cons x l ih =>
    obtain ⟨y, hy, hnone⟩ := h
    rw [List.mapM_cons]
    rcases List.mem_cons.1 hy with rfl | hy
    · rw [hnone]
      rfl
    · rw [ih ⟨y, hy, hnone⟩]
      cases f x <;> rfl

theorem toMap?_upTo_eq_none {α : Type} {f : Draft → Option α} {g : α → Json}
    {m : SortedMap String α} {levels : Nat}
    (h : ∃ e ∈ m.entries, f (upTo levels (g e.2)) = none) :
    (upTo (levels + 1) (map g m)).toMap? f = none := by
  obtain ⟨e, he, hnone⟩ := h
  rw [map, upTo_obj, List.map_map, toMap?, mapM_eq_none, Option.map_none]
  exact ⟨_, List.mem_map_of_mem he, by rw [Function.comp_apply, hnone, Option.map_none]⟩

theorem toMap?_map {α : Type} {f : Draft → Option α} {g : α → Json} {m : SortedMap String α}
    (h : ∀ e ∈ m.entries, f (ofJson (g e.2)) = some e.2) :
    (ofJson (map g m)).toMap? f = some m := by
  rw [map, ofJson, toMap?, ofFields_eq_map, List.map_map, mapM_map (l := m.entries),
    Option.map_some, SortedMap.ofList_entries]
  intro e he
  simp only [Function.comp_apply, h e he, Option.map_some]

/-! ## Records -/

/-- A field that an object has once is the only one under its name, however values are read. -/
theorem filter_map_fields (f : Json → Draft) (fields : List (String × Json))
    (h : (fields.map (·.1)).Nodup) {e : String × Json} (he : e ∈ fields) :
    (fields.map fun e => (e.1, f e.2)).filter (fun d => d.1 == e.1) = [(e.1, f e.2)] := by
  induction fields with
  | nil => cases he
  | cons hd tl ih =>
    rw [List.map_cons, List.nodup_cons] at h
    rw [List.map_cons]
    rcases List.mem_cons.1 he with rfl | he
    · have htail : (tl.map fun e => (e.1, f e.2)).filter (fun d => d.1 == e.1) = [] := by
        rw [List.filter_eq_nil_iff]
        intro d hd
        obtain ⟨e', he', rfl⟩ := List.mem_map.1 hd
        intro hsame
        exact h.1 (List.mem_map.2 ⟨e', he', by simpa using hsame⟩)
      rw [List.filter_cons_of_pos (by simp), htail]
    · have hne : hd.1 ≠ e.1 := fun hsame => h.1 (List.mem_map.2 ⟨e, he, hsame.symm⟩)
      rw [List.filter_cons_of_neg (by simpa using hne), ih h.2 he]

/-- Some fields of an object that has each of its fields once are read as a record. -/
theorem toRecord?_of_mem (f : Json → Draft) (fields es : List (String × Json))
    (h : (fields.map (·.1)).Nodup) (hmem : ∀ e ∈ es, e ∈ fields) :
    (obj (fields.map fun e => (e.1, f e.2))).toRecord? (es.map (·.1)) =
      some (es.map fun e => some (f e.2)) := by
  rw [toRecord?]
  induction es with
  | nil => rfl
  | cons e es ih =>
    rw [List.map_cons, List.mapM_cons, filter_map_fields f fields h (hmem e List.mem_cons_self),
      ih fun e' he' => hmem e' (List.mem_cons_of_mem _ he')]
    rfl

variable {fields : List (String × Json)} {names : List String}

/-- An object that has the fields of a record in their order is read as the record. -/
theorem toRecord?_obj (hnames : fields.map (·.1) = names) (h : names.Nodup) :
    (ofJson (.obj fields)).toRecord? names = some (fields.map fun e => some (ofJson e.2)) := by
  subst hnames
  rw [ofJson, ofFields_eq_map]
  exact toRecord?_of_mem ofJson fields fields h fun _ he => he

/-- The same where only some levels of nesting are followed. -/
theorem toRecord?_upTo (levels : Nat) (hnames : fields.map (·.1) = names) (h : names.Nodup) :
    (upTo (levels + 1) (.obj fields)).toRecord? names =
      some (fields.map fun e => some (upTo levels e.2)) := by
  subst hnames
  rw [upTo_obj]
  exact toRecord?_of_mem (upTo levels) fields fields h fun _ he => he

end Draft
end Json
end TaskTable
