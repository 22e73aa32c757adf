import TaskTable.Proofs.Number.Digits
import TaskTable.Proofs.Recording.Diff
import TaskTable.Proofs.Text.Plain

/-!
# Transcripts tell runs apart

A transcript without its stamps is one line for each event (`normalize_transcript`), and an event
can be read off its line up to its time (`sameButTime_of_describe_eq`), as long as names are names
and values have a written form. So the difference of two recordings is empty exactly for recordings
of the same run.
-/

namespace TaskTable

open Grammar Reader

/-! ## Lines that end in no blank -/

namespace Text

/-- A text on one line that does not end in a blank. -/
structure Closed (s : List Char) : Prop where
  oneLine : '\n' ∉ s
  noBlank : Stops isBlank s.reverse

/-- What stands in front of a closed text leaves it closed, if something is closed at all. -/
theorem Closed.prepend {s t : List Char} (hs : '\n' ∉ s) (ht : Closed t) (hne : t ≠ []) :
    Closed (s ++ t) := by
  constructor
  · intro hmem
    rcases List.mem_append.1 hmem with hmem | hmem
    · exact hs hmem
    · exact ht.oneLine hmem
  · intro c hc
    apply ht.noBlank c
    rw [List.reverse_append, List.head?_append] at hc
    rw [List.head?_reverse, List.getLast?_eq_some_getLast hne] at hc ⊢
    exact hc

theorem Closed.append {s t : List Char} (hs : Closed s) (ht : Closed t) : Closed (s ++ t) := by
  by_cases hne : t = []
  · rw [hne, List.append_nil]
    exact hs
  · exact ht.prepend hs.oneLine hne

theorem closed_nil : Closed [] :=
  ⟨List.not_mem_nil, stops_nil _⟩

theorem closed_name {name : String} (h : IsName name) : Closed name.toList := by
  constructor
  · intro hmem
    exact (isOrdinary_of_isNameChar (h.2 _ hmem)).2 rfl
  · intro c hc
    rw [List.head?_reverse] at hc
    exact isBlank_of_isNameChar (h.2 c (List.mem_of_getLast? hc))

theorem closed_quoteChars {v : String} (h : Quotable v) : Closed (quoteChars v.toList) := by
  constructor
  · exact feed_not_mem_quoteChars h
  · intro c hc
    rw [List.head?_reverse] at hc
    exact not_isBlank_quoteChars h.enclosable (.inr hc)

end Text

/-! ## Events as lines -/

namespace Event

/-- An event with names where names belong and values that have a written form. -/
def Writable : Event → Prop
  | state name _ _ => IsName name
  | transition left method value requested _ _ =>
    IsName left ∧ IsName method ∧ Quotable value ∧ ∀ v ∈ requested, Quotable v

instance : (e : Event) → Decidable e.Writable
  | state name _ _ => inferInstanceAs (Decidable (IsName name))
  | transition left method value requested _ _ =>
    inferInstanceAs (Decidable (IsName left ∧ IsName method ∧ Quotable value ∧
      ∀ v ∈ requested, Quotable v))

/-- Two events that differ in nothing but the time at which they happened. -/
def SameButTime (e e' : Event) : Prop :=
  e.withTime e'.time = e'

end Event

namespace Recording

open Text (Closed closed_nil closed_name closed_quoteChars)

/-- The mark of a state whose handler did not run. -/
def executedChars (executed : Bool) : List Char :=
  if executed then [] else " (not executed)".toList

/-- The target of a transition as its line tells it. -/
def targetChars (target : Option String) : List Char :=
  target.elim [] fun s => " -> ".toList ++ s.toList

/-- The value that was asked for as the line of a transition tells it. -/
def requestedChars (requested : Option String) : List Char :=
  requested.elim [] fun v => " (requested ".toList ++ (Text.quoteChars v.toList ++ [')'])

theorem toList_describe_state (name : String) (executed : Bool) (t : Instant)
    (next : Option Event) : (describe (.state name executed t) next).toList =
      "STATE ".toList ++ (name.toList ++ executedChars executed) := by
  unfold describe executedChars
  rw [String.toList_append, String.toList_append, List.append_assoc]
  cases executed
  · rfl
  · rfl

theorem toList_describe_transition (left method value : String) (requested : Option String)
    (origin : Origin) (t : Instant) (next : Option Event) :
    (describe (.transition left method value requested origin t) next).toList =
      "TRANSITION ".toList ++ (left.toList ++ ':' :: (method.toList ++ ' ' ::
        (Text.quoteChars value.toList ++ (targetChars (next.bind Event.entered?) ++
          (requestedChars requested ++ (originMark origin).toList))))) := by
  have htarget : ((next.bind Event.entered?).elim "" fun s => " -> " ++ s).toList =
      targetChars (next.bind Event.entered?) := by
    cases next.bind Event.entered? with
    | none => rfl
    | some s => exact String.toList_append
  have hrequested : (requested.elim "" fun v => " (requested " ++ Text.quote v ++ ")").toList =
      requestedChars requested := by
    cases requested with
    | none => rfl
    | some v =>
      show (" (requested " ++ Text.quote v ++ ")").toList = _
      rw [String.toList_append, String.toList_append, Text.toList_quote, List.append_assoc]
      rfl
  unfold describe
  simp only [String.toList_append, htarget, hrequested, Text.toList_quote, List.append_assoc]
  rfl

theorem closed_originMark (origin : Origin) : Closed (originMark origin).toList := by
  cases origin
  · exact closed_nil
  · exact ⟨by decide, stops_cons (by decide) _⟩
  · exact ⟨by decide, stops_cons (by decide) _⟩

theorem closed_executedChars (executed : Bool) : Closed (executedChars executed) := by
  cases executed
  · exact ⟨by decide, stops_cons (by decide) _⟩
  · exact closed_nil

theorem closed_targetChars {target : Option String} (h : ∀ s, target = some s → IsName s) :
    Closed (targetChars target) := by
  cases target with
  | none => exact closed_nil
  | some s => exact (closed_name (h s rfl)).prepend (by decide) (h s rfl).1

theorem closed_requestedChars {requested : Option String}
    (h : ∀ v, requested = some v → Quotable v) : Closed (requestedChars requested) := by
  cases requested with
  | none => exact closed_nil
  | some v =>
    have hbracket : Closed [')'] := ⟨by decide, stops_cons (by decide) _⟩
    have hvalue := (closed_quoteChars (h v rfl)).append hbracket
    exact hvalue.prepend (by decide) (by simp)

/-- The state that a writable event entered has a name. -/
theorem isName_of_entered {next : Option Event} (h : ∀ e ∈ next, e.Writable) {s : String}
    (hs : next.bind Event.entered? = some s) : IsName s := by
  obtain ⟨e, he, hentered⟩ := Option.bind_eq_some_iff.1 hs
  cases e with
  | state name executed t =>
    cases hentered
    exact h _ he
  | transition => cases hentered

/-- The line of an event is closed, and empty for no event. -/
theorem closed_describe {e : Event} {next : Option Event} (he : e.Writable)
    (hnext : ∀ e' ∈ next, e'.Writable) :
    Closed (describe e next).toList ∧ (describe e next).toList ≠ [] := by
  cases e with
  | state name executed t =>
    rw [toList_describe_state]
    refine ⟨?_, by simp⟩
    have hname : Closed name.toList := closed_name he
    have hne : name.toList ++ executedChars executed ≠ [] :=
      List.append_ne_nil_of_left_ne_nil (show IsName name from he).1 _
    exact (hname.append (closed_executedChars executed)).prepend (by decide) hne
  | transition left method value requested origin t =>
    rw [toList_describe_transition]
    refine ⟨?_, by simp⟩
    obtain ⟨hleft, hmethod, hvalue, hrequested⟩ := he
    have htail := (closed_targetChars fun s => isName_of_entered hnext).append
      ((closed_requestedChars hrequested).append (closed_originMark origin))
    have hquoted := (closed_quoteChars hvalue).append htail
    have hfeed : ∀ {name : String}, IsName name → ∀ c, c ≠ '\n' → '\n' ∉ name.toList ++ [c] := by
      intro name hname c hc hmem
      rcases List.mem_append.1 hmem with hmem | hmem
      · exact (closed_name hname).oneLine hmem
      · exact hc (List.mem_singleton.1 hmem).symm
    have hrest := hquoted.prepend (hfeed hmethod ' ' (by decide))
      (List.append_ne_nil_of_left_ne_nil (Text.quoteChars_ne_nil _) _)
    have hwhole := hrest.prepend (hfeed hleft ':' (by decide)) (by simp)
    have hline := hwhole.prepend (s := "TRANSITION ".toList) (by decide) (by simp)
    simpa using hline

/-! ## Lines of a transcript -/

/-- The lines that a transcript has behind its stamps. -/
def descriptions : List Event → List String
  | [] => []
  | e :: rest => describe e rest.head? :: descriptions rest

/-- A stamp is in brackets and holds no closing bracket. -/
theorem toList_stamp (origin : Option Instant) (t : Instant) :
    ∃ w, (stamp origin t).toList = '[' :: '+' :: (w ++ [']']) ∧ ∀ c ∈ w, c ≠ ']' ∧ c ≠ '\n' := by
  unfold stamp
  dsimp only
  generalize (origin.elim 0 fun o => o.elapsedMillis t) = ms
  refine ⟨Number.digits (ms / 1000) ++ '.' :: (Number.padded 3 (ms % 1000) ++ ['s']), ?_, ?_⟩
  · simp [Number.digits, Nat.toString_eq_repr]
  · have hdigit : ∀ c : Char, c.isDigit = true → c ≠ ']' ∧ c ≠ '\n' := by
      intro c hc
      constructor <;> rintro rfl <;> revert hc <;> decide
    intro c hc
    rcases List.mem_append.1 hc with hc | hc
    · exact hdigit c (Number.isDigit_of_mem_digits hc)
    · rcases List.mem_cons.1 hc with rfl | hc
      · decide
      · rcases List.mem_append.1 hc with hc | hc
        · exact hdigit c (Number.isDigit_of_mem_padded hc)
        · rw [List.mem_singleton.1 hc]
          decide

/-- A stamp ends at the first closing bracket. -/
theorem afterStamp_append {w : List Char} (h : ']' ∉ w) (rest : List Char) :
    Transcript.afterStamp (w ++ ']' :: ' ' :: rest) = some rest := by
  induction w with
  | nil => rfl
  | cons c cs ih =>
    have hc : c ≠ ']' := fun e => h (e ▸ List.mem_cons_self)
    rw [List.cons_append, Transcript.afterStamp, ih fun hm => h (List.mem_cons_of_mem _ hm)]
    intro rest' heq
    exact absurd heq hc

/-- A stamped line is a line, has nothing to trim, and is what it was behind its stamp. -/
theorem stamped_line (origin : Option Instant) (t : Instant) {desc : List Char}
    (hdesc : Closed desc) (hne : desc ≠ []) :
    Text.IsLine ((stamp origin t).toList ++ ' ' :: desc) ∧
      Text.trim ((stamp origin t).toList ++ ' ' :: desc) = (stamp origin t).toList ++ ' ' :: desc ∧
      Transcript.dropStamp ((stamp origin t).toList ++ ' ' :: desc) = desc := by
  obtain ⟨w, hstamp, hw⟩ := toList_stamp origin t
  have hbracket : ']' ∉ '[' :: '+' :: w := by
    simp only [List.mem_cons, not_or]
    exact ⟨by decide, by decide, fun hm => (hw _ hm).1 rfl⟩
  have hfeed : '\n' ∉ (stamp origin t).toList ++ [' '] := by
    rw [hstamp]
    simp only [List.mem_append, List.mem_cons, not_or]
    exact ⟨⟨by decide, by decide, fun hm => (hw _ hm).2 rfl, by decide⟩, by decide⟩
  have hclosed := hdesc.prepend hfeed hne
  rw [List.append_assoc, List.singleton_append] at hclosed
  refine ⟨⟨by simp, hclosed.oneLine, ?_⟩, ?_, ?_⟩
  · intro hlast
    have hblank := hclosed.noBlank '\r' (by rw [List.head?_reverse, hlast]; rfl)
    revert hblank
    decide
  · apply Text.trim_of_stops _ hclosed.noBlank
    rw [hstamp]
    exact stops_cons (by decide) _
  · have hafter := afterStamp_append hbracket desc
    rw [hstamp]
    simp only [List.cons_append, List.append_assoc, List.nil_append] at hafter ⊢
    rw [Transcript.dropStamp, hafter]
    rfl

/-- The lines of a transcript are stamped descriptions. -/
theorem transcriptLines_spec (origin : Option Instant) {es : List Event}
    (h : ∀ e ∈ es, e.Writable) :
    (∀ l ∈ transcriptLines origin es, Text.IsLine l.toList ∧
        Text.trim l.toList = l.toList ∧ l.toList ≠ []) ∧
      (transcriptLines origin es).map (fun l => String.ofList (Transcript.dropStamp l.toList)) =
        descriptions es := by
  induction es with
  | nil => exact ⟨by simp [transcriptLines], rfl⟩
  | cons e rest ih =>
    obtain ⟨ihlines, ihmap⟩ := ih fun e' he' => h e' (List.mem_cons_of_mem _ he')
    have hnext : ∀ e' ∈ rest.head?, e'.Writable := fun e' he' =>
      h e' (List.mem_cons_of_mem _ (List.mem_of_head? he'))
    obtain ⟨hclosed, hne⟩ := closed_describe (h e List.mem_cons_self) hnext
    obtain ⟨hline, htrim, hdrop⟩ := stamped_line origin e.time hclosed hne
    have htext : (stamp origin e.time ++ " " ++ describe e rest.head?).toList =
        (stamp origin e.time).toList ++ ' ' :: (describe e rest.head?).toList := by
      simp
    rw [transcriptLines]
    constructor
    · intro l hl
      rcases List.mem_cons.1 hl with rfl | hl
      · rw [htext]
        exact ⟨hline, htrim, hline.nonempty⟩
      · exact ihlines l hl
    · rw [List.map_cons, ihmap, htext, hdrop, String.ofList_toList, descriptions]

/-- A transcript without its stamps tells what each event was. -/
theorem normalize_transcript {r : Recording} (h : ∀ e ∈ r.events, e.Writable) :
    Transcript.normalize r.transcript = descriptions r.events := by
  obtain ⟨hlines, hmap⟩ := transcriptLines_spec r.origin? h
  unfold Transcript.normalize transcript
  rw [Text.toList_intercalate_newline, Text.lines_unlines, List.map_map]
  · have hkeep : (transcriptLines r.origin? r.events).map (Text.trim ∘ String.toList) =
        (transcriptLines r.origin? r.events).map String.toList := by
      apply List.map_congr_left
      intro l hl
      exact (hlines l hl).2.1
    rw [hkeep, List.filter_eq_self.2, List.map_map]
    · exact hmap
    · intro l hl
      obtain ⟨m, hm, rfl⟩ := List.mem_map.1 hl
      simpa using (hlines m hm).2.2
  · intro l hl
    obtain ⟨m, hm, rfl⟩ := List.mem_map.1 hl
    exact (hlines m hm).1

/-! ## Events read off their lines -/

theorem stops_of_front {p : Char → Bool} {c : Char} (hc : p c = false) {s : List Char}
    (hs : s = [] ∨ ∃ rest, s = c :: rest) : Stops p s := by
  rcases hs with rfl | ⟨rest, rfl⟩
  · exact stops_nil p
  · exact stops_cons hc rest

/-- What may follow the value of a transition is nothing, or begins with a blank. -/
theorem tail_cases (target : Option String) (requested : Option String) (origin : Origin) :
    targetChars target ++ (requestedChars requested ++ (originMark origin).toList) = [] ∨
      ∃ rest, targetChars target ++ (requestedChars requested ++ (originMark origin).toList) =
        ' ' :: rest := by
  cases target with
  | some s => exact .inr ⟨_, rfl⟩
  | none =>
    cases requested with
    | some v => exact .inr ⟨_, rfl⟩
    | none =>
      cases origin
      · exact .inl rfl
      · exact .inr ⟨_, rfl⟩
      · exact .inr ⟨_, rfl⟩

/-- A name in front of something else is read off a text. -/
theorem name_append_injective {n n' : String} {s s' : List Char} (h : IsName n) (h' : IsName n')
    (hs : Stops isNameChar s) (hs' : Stops isNameChar s')
    (heq : n.toList ++ s = n'.toList ++ s') : n = n' ∧ s = s' := by
  have hread := read_stateName h hs
  rw [heq, read_stateName h' hs'] at hread
  injection hread with hpair
  injection hpair with hname hrest
  exact ⟨hname.symm, hrest.symm⟩

/-- A written value in front of something else is read off a text. -/
theorem quoteChars_append_injective {v v' : String} {s s' : List Char} (h : Quotable v)
    (h' : Quotable v') (hs : Stops isValueChar s) (hs' : Stops isValueChar s')
    (heq : Text.quoteChars v.toList ++ s = Text.quoteChars v'.toList ++ s') : v = v' ∧ s = s' := by
  have hread := read_value h.enclosable hs
  rw [heq, read_value h'.enclosable hs'] at hread
  injection hread with hpair
  injection hpair with hvalue hrest
  exact ⟨hvalue.symm, hrest.symm⟩

/-- The last bracket of a line closes the value that was asked for, or is the end of a mark. -/
theorem originMark_injective {o o' : Origin} {w w' : List Char}
    (h : w ++ ')' :: (originMark o).toList = w' ++ ')' :: (originMark o').toList) :
    o = o' ∧ w = w' := by
  have hlast := congrArg List.reverse h
  cases o <;> cases o' <;>
    simp [originMark] at hlast ⊢ <;> exact hlast

/-- What was asked for and the origin are read off the end of a line. -/
theorem requestedChars_injective {r r' : Option String} {o o' : Origin}
    (hr : ∀ v, r = some v → Quotable v) (hr' : ∀ v, r' = some v → Quotable v)
    (h : requestedChars r ++ (originMark o).toList = requestedChars r' ++ (originMark o').toList) :
    r = r' ∧ o = o' := by
  cases r with
  | none =>
    cases r' with
    | none => cases o <;> cases o' <;> simp [requestedChars, originMark] at h ⊢
    | some v' => cases o <;> simp [requestedChars, originMark] at h
  | some v =>
    cases r' with
    | none => cases o' <;> simp [requestedChars, originMark] at h
    | some v' =>
      simp only [requestedChars, Option.elim_some, List.append_assoc, List.append_cancel_left_eq,
        List.singleton_append] at h
      obtain ⟨horigin, hvalue⟩ := originMark_injective h
      obtain ⟨rfl, -⟩ := quoteChars_append_injective (hr v rfl) (hr' v' rfl) (stops_nil _)
        (stops_nil _) (congrArg (· ++ []) hvalue)
      exact ⟨rfl, horigin⟩

/-- No line without a target goes on as one with a target does. -/
theorem requestedChars_ne_arrow (r : Option String) (o : Origin) (rest : List Char) :
    requestedChars r ++ (originMark o).toList ≠ " -> ".toList ++ rest := by
  intro h
  cases r with
  | none => cases o <;> simp [requestedChars, originMark] at h
  | some v => simp [requestedChars] at h

/-- Whatever the targets are, what follows them is read off the line. -/
theorem targetChars_injective {t t' r r' : Option String} {o o' : Origin}
    (ht : ∀ s, t = some s → IsName s) (ht' : ∀ s, t' = some s → IsName s)
    (h : targetChars t ++ (requestedChars r ++ (originMark o).toList) =
      targetChars t' ++ (requestedChars r' ++ (originMark o').toList)) :
    requestedChars r ++ (originMark o).toList = requestedChars r' ++ (originMark o').toList := by
  cases t with
  | none =>
    cases t' with
    | none => exact h
    | some s' => exact absurd h (requestedChars_ne_arrow r o _)
  | some s =>
    cases t' with
    | none => exact absurd h.symm (requestedChars_ne_arrow r' o' _)
    | some s' =>
      have hs : Stops isNameChar (requestedChars r ++ (originMark o).toList) :=
        stops_of_front (by decide) (tail_cases none r o)
      have hs' : Stops isNameChar (requestedChars r' ++ (originMark o').toList) :=
        stops_of_front (by decide) (tail_cases none r' o')
      simp only [targetChars, Option.elim_some, List.append_assoc, List.append_cancel_left_eq] at h
      exact (name_append_injective (ht s rfl) (ht' s' rfl) hs hs' h).2

/-- A state event is read off its line. -/
theorem state_of_describe_eq {name name' : String} {executed executed' : Bool}
    (h : IsName name) (h' : IsName name')
    (heq : name.toList ++ executedChars executed = name'.toList ++ executedChars executed') :
    name = name' ∧ executed = executed' := by
  have hstops : ∀ b, Stops isNameChar (executedChars b) := by
    intro b
    cases b
    · exact stops_cons (by decide) _
    · exact stops_nil _
  obtain ⟨hname, hrest⟩ := name_append_injective h h' (hstops executed) (hstops executed') heq
  refine ⟨hname, ?_⟩
  cases executed <;> cases executed' <;> simp [executedChars] at hrest ⊢

/-- The names and the value of a transition are read off its line. -/
theorem transition_of_describe_eq {left left' method method' value value' : String}
    {rest rest' : List Char} (hleft : IsName left) (hleft' : IsName left')
    (hmethod : IsName method) (hmethod' : IsName method') (hvalue : Quotable value)
    (hvalue' : Quotable value') (hrest : Stops isValueChar rest) (hrest' : Stops isValueChar rest')
    (heq : left.toList ++ ':' :: (method.toList ++ ' ' :: (Text.quoteChars value.toList ++ rest)) =
      left'.toList ++ ':' ::
        (method'.toList ++ ' ' :: (Text.quoteChars value'.toList ++ rest'))) :
    left = left' ∧ method = method' ∧ value = value' ∧ rest = rest' := by
  have hcolon : ∀ s, Stops isNameChar (':' :: s) := fun s => stops_cons (by decide) s
  have hblank : ∀ s, Stops isNameChar (' ' :: s) := fun s => stops_cons (by decide) s
  obtain ⟨heqleft, hbehind⟩ := name_append_injective hleft hleft' (hcolon _) (hcolon _) heq
  injection hbehind with _ hbehind
  obtain ⟨heqmethod, hbehind⟩ :=
    name_append_injective hmethod hmethod' (hblank _) (hblank _) hbehind
  injection hbehind with _ hbehind
  obtain ⟨heqvalue, heqrest⟩ := quoteChars_append_injective hvalue hvalue' hrest hrest' hbehind
  exact ⟨heqleft, heqmethod, heqvalue, heqrest⟩

/-- An event is read off its line, up to its time. -/
theorem sameButTime_of_describe_eq {e e' : Event} {next next' : Option Event} (he : e.Writable)
    (he' : e'.Writable) (hnext : ∀ f ∈ next, f.Writable) (hnext' : ∀ f ∈ next', f.Writable)
    (h : describe e next = describe e' next') : e.SameButTime e' := by
  have hchars := congrArg String.toList h
  cases e with
  | state name executed t =>
    cases e' with
    | state name' executed' t' =>
      rw [toList_describe_state, toList_describe_state, List.append_cancel_left_eq] at hchars
      obtain ⟨rfl, rfl⟩ := state_of_describe_eq he he' hchars
      rfl
    | transition left' method' value' requested' origin' t' =>
      rw [toList_describe_state, toList_describe_transition] at hchars
      simp at hchars
  | transition left method value requested origin t =>
    cases e' with
    | state name' executed' t' =>
      rw [toList_describe_state, toList_describe_transition] at hchars
      simp at hchars
    | transition left' method' value' requested' origin' t' =>
      rw [toList_describe_transition, toList_describe_transition,
        List.append_cancel_left_eq] at hchars
      obtain ⟨hleft, hmethod, hvalue, hrequested⟩ := he
      obtain ⟨hleft', hmethod', hvalue', hrequested'⟩ := he'
      obtain ⟨rfl, rfl, rfl, htail⟩ := transition_of_describe_eq hleft hleft' hmethod hmethod'
        hvalue hvalue' (stops_of_front (by decide) (tail_cases _ _ _))
        (stops_of_front (by decide) (tail_cases _ _ _)) hchars
      have hrest := targetChars_injective (fun s => isName_of_entered hnext)
        (fun s => isName_of_entered hnext') htail
      obtain ⟨rfl, rfl⟩ := requestedChars_injective hrequested hrequested' hrest
      rfl

/-! ## Runs told by their transcripts -/

theorem entered_withTime (e : Event) (t : Instant) : (e.withTime t).entered? = e.entered? := by
  cases e <;> rfl

theorem describe_withTime (e : Event) (t : Instant) (next : Option Event) :
    describe (e.withTime t) next = describe e next := by
  apply String.toList_injective
  cases e with
  | state => rw [Event.withTime, toList_describe_state, toList_describe_state]
  | transition => rw [Event.withTime, toList_describe_transition, toList_describe_transition]

/-- The line of an event names the state of the next one, and nothing else of it. -/
theorem describe_congr (e : Event) {next next' : Option Event}
    (h : next.bind Event.entered? = next'.bind Event.entered?) :
    describe e next = describe e next' := by
  apply String.toList_injective
  cases e with
  | state => rw [toList_describe_state, toList_describe_state]
  | transition => rw [toList_describe_transition, toList_describe_transition, h]

theorem entered_head_of_forall₂ {es es' : List Event}
    (h : List.Forall₂ Event.SameButTime es es') :
    es.head?.bind Event.entered? = es'.head?.bind Event.entered? := by
  cases h with
  | nil => rfl
  | cons hsame _ =>
    show Event.entered? _ = Event.entered? _
    rw [← hsame, entered_withTime]

/-- The lines of two runs are the same just where the runs are, up to the times. -/
theorem descriptions_eq_iff {es es' : List Event} (h : ∀ e ∈ es, e.Writable)
    (h' : ∀ e ∈ es', e.Writable) :
    descriptions es = descriptions es' ↔ List.Forall₂ Event.SameButTime es es' := by
  induction es generalizing es' with
  | nil =>
    cases es' with
    | nil => exact iff_of_true rfl .nil
    | cons e' rest' => exact iff_of_false (List.cons_ne_nil _ _).symm (by rintro ⟨⟩)
  | cons e rest ih =>
    cases es' with
    | nil => exact iff_of_false (List.cons_ne_nil _ _) (by rintro ⟨⟩)
    | cons e' rest' =>
      have hrest : ∀ f ∈ rest, f.Writable := fun f hf => h f (List.mem_cons_of_mem _ hf)
      have hrest' : ∀ f ∈ rest', f.Writable := fun f hf => h' f (List.mem_cons_of_mem _ hf)
      rw [descriptions, descriptions, List.cons.injEq, ih hrest hrest', List.forall₂_cons]
      constructor
      · rintro ⟨hline, hsame⟩
        refine ⟨?_, hsame⟩
        exact sameButTime_of_describe_eq (h e List.mem_cons_self) (h' e' List.mem_cons_self)
          (fun f hf => hrest f (List.mem_of_head? hf))
          (fun f hf => hrest' f (List.mem_of_head? hf)) hline
      · rintro ⟨hevent, hsame⟩
        refine ⟨?_, hsame⟩
        rw [← hevent, describe_withTime]
        exact describe_congr e (entered_head_of_forall₂ hsame)

/-- The difference of two recordings is empty if and only if they record the same run, whatever
their times are. -/
theorem diff_eq_empty_iff {r r' : Recording} (h : ∀ e ∈ r.events, e.Writable)
    (h' : ∀ e ∈ r'.events, e.Writable) :
    r.diff r'.transcript = "" ↔ List.Forall₂ Event.SameButTime r.events r'.events := by
  unfold diff
  rw [Transcript.diff_eq_empty, normalize_transcript h, normalize_transcript h']
  exact descriptions_eq_iff h h'

/-- A run whose values look like parts of a transcript. -/
def askedRun (started first second : Instant) : Recording where
  events :=
    [.state "poll" true first,
      .transition "poll" "check" "it's -> b" (some "[fallback] (requested") .fallback second,
      .state "b" false second]
  startedAt := some started

/-- Two recordings of this run at different times. -/
theorem diff_eq_empty_iff_askedRun :
    (∀ e ∈ (askedRun ⟨0, 0⟩ ⟨1, 0⟩ ⟨2, 0⟩).events, e.Writable) ∧
      (∀ e ∈ (askedRun ⟨90, 0⟩ ⟨60, 5⟩ ⟨4000, 0⟩).events, e.Writable) ∧
      (askedRun ⟨0, 0⟩ ⟨1, 0⟩ ⟨2, 0⟩).diff
        (askedRun ⟨90, 0⟩ ⟨60, 5⟩ ⟨4000, 0⟩).transcript = "" := by
  have hfirst : ∀ e ∈ (askedRun ⟨0, 0⟩ ⟨1, 0⟩ ⟨2, 0⟩).events, e.Writable := by decide +kernel
  have hagain : ∀ e ∈ (askedRun ⟨90, 0⟩ ⟨60, 5⟩ ⟨4000, 0⟩).events, e.Writable := by decide +kernel
  have hsame : List.Forall₂ Event.SameButTime (askedRun ⟨0, 0⟩ ⟨1, 0⟩ ⟨2, 0⟩).events
      (askedRun ⟨90, 0⟩ ⟨60, 5⟩ ⟨4000, 0⟩).events :=
    .cons rfl (.cons rfl (.cons rfl .nil))
  exact ⟨hfirst, hagain, (diff_eq_empty_iff hfirst hagain).2 hsame⟩

end Recording

end TaskTable
