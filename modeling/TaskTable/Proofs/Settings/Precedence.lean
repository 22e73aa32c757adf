import TaskTable.Settings.Load

/-!
# Which settings win

Settings are laid over one another: those of a file over the defaults, those of the environment over
these. Here it is shown that each setting is what the last of these layers gives that says anything
about it (`layered_load`), and that a log level that is asked for wins over all of them. What a
layer gives is what it comes to over nothing; `Within` carries this over to any other base.
-/

namespace TaskTable
namespace Settings

/-! ## Values at paths -/

namespace Value

/-- The value that a path of fields leads to. -/
def at? : (path : List String) → Value → Option Value
  | [], v => some v
  | key :: path, v => (v.get? key).bind (at? path)

/-- Whether a value is neither a table nor a list. -/
def isPlain : Value → Bool
  | table _ | list _ => false
  | _ => true

theorem lookup_putField_self (key : String) (v : Value) (fs : List (String × Value)) :
    (putField key v fs).lookup key = some v := by
  induction fs with
  | nil => simp [putField]
  | cons f fs ih =>
    obtain ⟨k, w⟩ := f
    unfold putField
    split
    · next hk => rw [List.lookup_cons, hk, beq_self_eq_true]
    · next hk =>
      have hne : (key == k) = false := by simpa using fun h => hk h.symm
      rw [List.lookup_cons, hne, ih]

theorem lookup_putField_of_ne {key key' : String} (h : key' ≠ key) (v : Value)
    (fs : List (String × Value)) : (putField key v fs).lookup key' = fs.lookup key' := by
  have hne : (key' == key) = false := by simpa using h
  induction fs with
  | nil => simp [putField, List.lookup_cons, hne]
  | cons f fs ih =>
    obtain ⟨k, w⟩ := f
    unfold putField
    split
    · next hk =>
      subst hk
      rw [List.lookup_cons, List.lookup_cons, hne]
    · rw [List.lookup_cons, List.lookup_cons, ih]

theorem get?_set_self (v : Value) (key : String) (x : Value) : (v.set key x).get? key = some x :=
  lookup_putField_self key x v.fields

theorem get?_set_of_ne (v : Value) {key key' : String} (h : key' ≠ key) (x : Value) :
    (v.set key x).get? key' = v.get? key' :=
  lookup_putField_of_ne h x v.fields

theorem at?_set_self (v : Value) (key : String) (x : Value) (path : List String) :
    (v.set key x).at? (key :: path) = x.at? path := by
  rw [at?, get?_set_self, Option.bind_some]

theorem at?_set_of_ne (v : Value) {key key' : String} (h : key' ≠ key) (x : Value)
    (path : List String) : (v.set key x).at? (key' :: path) = v.at? (key' :: path) := by
  rw [at?, get?_set_of_ne v h, at?]

/-- A field that is not there has no fields either. -/
theorem at?_getOrEmpty (v : Value) (key : String) {path : List String} (h : path ≠ []) :
    (v.getOrEmpty key).at? path = v.at? (key :: path) := by
  rw [at?, getOrEmpty]
  cases v.get? key with
  | some w => rfl
  | none =>
    cases path with
    | nil => exact absurd rfl h
    | cons key' path => rfl

/-! ## What is laid over other values counts -/

/-- Whether the second value has the plain values of the first, at the same paths. -/
def Within (v w : Value) : Prop :=
  ∀ path x, x.isPlain = true → v.at? path = some x → w.at? path = some x

theorem within_list (items : List Value) (w : Value) : Within (list items) w := by
  rintro (_ | ⟨key, path⟩) x hx h
  · cases h
    cases hx
  · cases h

theorem within_empty (w : Value) : Within (table []) w := by
  rintro (_ | ⟨key, path⟩) x hx h
  · cases h
    cases hx
  · cases h

namespace Within

variable {v w x y : Value}

theorem refl (v : Value) : Within v v :=
  fun _ _ _ h => h

theorem getOrEmpty (h : Within v w) (key : String) :
    Within (v.getOrEmpty key) (w.getOrEmpty key) := by
  intro path z hz hget
  cases hv : v.get? key with
  | none =>
    rw [Value.getOrEmpty, hv] at hget
    exact within_empty _ path z hz hget
  | some v' =>
    rw [Value.getOrEmpty, hv] at hget
    have hw : w.at? (key :: path) = some z := h (key :: path) z hz (by rw [at?, hv]; exact hget)
    rw [at?] at hw
    rw [Value.getOrEmpty]
    cases hw' : w.get? key with
    | none => rw [hw'] at hw; cases hw
    | some w' => rwa [hw'] at hw

theorem set (h : Within v w) (key : String) (hxy : Within x y) :
    Within (v.set key x) (w.set key y) := by
  rintro (_ | ⟨key', path⟩) z hz hget
  · cases hget
    cases hz
  · by_cases hkey : key' = key
    · subst hkey
      rw [at?_set_self] at hget ⊢
      exact hxy path z hz hget
    · rw [at?_set_of_ne _ hkey] at hget ⊢
      exact h _ z hz hget

mutual

/-- Whatever is laid over both values. -/
theorem overlay {v w : Value} (h : Within v w) :
    (new : Value) → Within (v.overlay new) (w.overlay new)
  | .table fs => overlayFields h fs
  | .nothing | .bool _ | .int _ | .real _ | .text _ | .list _ => by
    unfold Value.overlay
    exact refl _

theorem overlayFields {v w : Value} (h : Within v w) : (fs : List (String × Value)) →
    Within (v.overlayFields fs) (w.overlayFields fs)
  | [] => h
  | (key, new) :: fs => by
    unfold Value.overlayFields
    exact overlayFields (h.set _ (overlay (h.getOrEmpty _) new)) fs

end

theorem overlayAt (h : Within v w) (new : Value) (p : Path) :
    Within (v.overlayAt new p) (w.overlayAt new p) := by
  induction p generalizing v w with
  | nil => exact h.overlay new
  | cons step p ih =>
    cases step with
    | field name => exact h.set name (ih (h.getOrEmpty name))
    | item n => cases p <;> exact within_list _ _

end Within

/-! ## What is not spoken about stays -/

/-- Whether a value that is laid over another says nothing about what stands at the end of a path
there. -/
def Silent : (path : List String) → Value → Prop
  | key :: path, table fs => ∀ f ∈ fs, lower f.1 = key → Silent path f.2
  | _, _ => False

/-- Whether a value that is laid over what stands at one place says nothing about another one. -/
def SilentAt (new : Value) : Path → (path : List String) → Prop
  | [], path => Silent path new
  | .field name :: place, key :: path => name = key → SilentAt new place path
  | _, _ => False

theorem at?_overlay {path : List String} {v new : Value} (h : Silent path new) :
    (v.overlay new).at? path = v.at? path := by
  induction path generalizing v new with
  | nil => exact h.elim
  | cons key path ih =>
    cases new with
    | table fs =>
      unfold overlay
      -- field by field; one of another name leaves the path alone
      induction fs generalizing v with
      | nil => rfl
      | cons f fs ihf =>
        obtain ⟨k, x⟩ := f
        have hrest : Silent (key :: path) (table fs) := fun f hf => h f (List.mem_cons_of_mem _ hf)
        unfold overlayFields
        rw [ihf hrest]
        by_cases hkey : lower k = key
        · have hsilent : Silent path x := h (k, x) List.mem_cons_self hkey
          have hpath : path ≠ [] := by
            rintro rfl
            exact hsilent
          rw [hkey, at?_set_self, ih hsilent, at?_getOrEmpty v key hpath]
        · rw [at?_set_of_ne _ (Ne.symm hkey)]
    | nothing | bool | int | real | text | list => exact h.elim

theorem at?_overlayAt {place : Path} {path : List String} {v new : Value}
    (h : SilentAt new place path) : (v.overlayAt new place).at? path = v.at? path := by
  induction place generalizing v path with
  | nil => exact at?_overlay h
  | cons step place ih =>
    cases step with
    | item n => cases path <;> exact h.elim
    | field name =>
      cases path with
      | nil => exact h.elim
      | cons key path =>
        by_cases hkey : name = key
        · have hsilent : SilentAt new place path := h hkey
          rw [overlayAt, hkey, at?_set_self, ih hsilent]
          refine at?_getOrEmpty v key ?_
          rintro rfl
          cases place with
          | nil => exact hsilent
          | cons step place => cases step <;> exact hsilent
        · rw [overlayAt, at?_set_of_ne _ (Ne.symm hkey)]

end Value

/-! ## Layers -/

/-- Values with the places at which they are laid over other settings, one after the other. -/
abbrev Layer := List (Path × Value)

namespace Layer

/-- A value with a layer over it. -/
def laidOver (base : Value) (layer : Layer) : Value :=
  layer.foldl (fun v e => v.overlayAt e.2 e.1) base

/-- What a settings file lays over the defaults. -/
def ofFile (file : Value) : Layer :=
  file.fields.map fun f => (Path.ofKey f.1, f.2)

/-- What an environment lays over the rest. -/
def ofVariables (env : Variables) : Layer :=
  env.filterMap fun e => (Environment.path? e.1).map fun place => (place, .ofVariable e.2)

theorem overlayFile_eq (base file : Value) : base.overlayFile file = laidOver base (ofFile file) := by
  rw [Value.overlayFile, laidOver, ofFile, List.foldl_map]

theorem overlay_eq (env : Variables) (base : Value) :
    Environment.overlay env base = laidOver base (ofVariables env) := by
  rw [Environment.overlay, laidOver, ofVariables, List.foldl_filterMap]
  refine congrArg (fun lay => env.foldl lay base) ?_
  funext v e
  cases Environment.path? e.1 <;> rfl

/-- Whether a layer gives a plain value at the end of a path, by itself already. -/
def Gives (layer : Layer) (path : List String) (x : Value) : Prop :=
  x.isPlain = true ∧ (laidOver (.table []) layer).at? path = some x

/-- Whether a layer says nothing about what stands at the end of a path. -/
def Silent (layer : Layer) (path : List String) : Prop :=
  ∀ e ∈ layer, e.2.SilentAt e.1 path

variable {layer : Layer} {path : List String} {x : Value}

theorem within_laidOver {v w : Value} (h : v.Within w) (layer : Layer) :
    (laidOver v layer).Within (laidOver w layer) := by
  induction layer generalizing v w with
  | nil => exact h
  | cons e layer ih => exact ih (h.overlayAt e.2 e.1)

/-- What a layer gives counts, whatever it is laid over. -/
theorem Gives.at?_laidOver (h : layer.Gives path x) (base : Value) :
    (laidOver base layer).at? path = some x :=
  within_laidOver (Value.within_empty base) layer path x h.1 h.2

/-- What a layer says nothing about stays as it was. -/
theorem Silent.at?_laidOver (h : layer.Silent path) (base : Value) :
    (laidOver base layer).at? path = base.at? path := by
  induction layer generalizing base with
  | nil => rfl
  | cons e layer ih =>
    have hfirst : e.2.SilentAt e.1 path := h e List.mem_cons_self
    have hrest : Silent layer path := fun e he => h e (List.mem_cons_of_mem _ he)
    exact (ih hrest _).trans (Value.at?_overlayAt hfirst)

/-- A file gives what stands in its sections. -/
example :
    (ofFile (.table [("simulation", .table [("max_steps", .int 40)])])).Gives
      ["simulation", "max_steps"] (.int 40) :=
  ⟨rfl, rfl⟩

end Layer

/-! ## Settings by name -/

/-- The settings. -/
inductive Key
  | level
  | format
  | pauseWait
  | failureProbability
  | seed
  | maxSteps
  deriving DecidableEq, Repr

namespace Key

/-- Where a setting stands. -/
def path : Key → List String
  | level => ["logging", "level"]
  | format => ["logging", "format"]
  | pauseWait => ["interpreter", "pause_wait_seconds"]
  | failureProbability => ["simulation", "failure_probability"]
  | seed => ["simulation", "seed"]
  | maxSteps => ["simulation", "max_steps"]

/-- Whether a setting is what a value stands for. -/
def Reads (s : Settings) (v : Value) : Key → Prop
  | level => v.toText? = some s.level
  | format => v.toText? = some s.format
  | pauseWait => v.toWord64? = some s.pauseWait
  | failureProbability => v.toReal? = some s.failureProbability
  | seed => v.toWord64?.map UInt64.ofNat = s.seed
  | maxSteps => v.toWord64? = some s.maxSteps

/-- Each setting has a variable whose name leads to it. -/
theorem exists_variable (key : Key) :
    ∃ name ∈ Environment.names, Environment.path? name = some (key.path.map Step.field) := by
  cases key with
  | level => exact ⟨"CADENCE__LOGGING__LEVEL", by decide, by rfl⟩
  | format => exact ⟨"CADENCE__LOGGING__FORMAT", by decide, by rfl⟩
  | pauseWait => exact ⟨"CADENCE__INTERPRETER__PAUSE_WAIT_SECONDS", by decide, by rfl⟩
  | failureProbability => exact ⟨"CADENCE__SIMULATION__FAILURE_PROBABILITY", by decide, by rfl⟩
  | seed => exact ⟨"CADENCE__SIMULATION__SEED", by decide, by rfl⟩
  | maxSteps => exact ⟨"CADENCE__SIMULATION__MAX_STEPS", by decide, by rfl⟩

end Key

/-! ## Reading settings -/

theorem required_eq {α : Type} {fields : List (String × Value)} {name : String}
    {read : Value → Option α} {a : α} (h : required fields name read = .ok a) {v : Value}
    (hv : fields.lookup name = some v) : read v = some a := by
  rw [required, hv, Option.bind_some] at h
  cases hread : read v with
  | none => rw [hread] at h; cases h
  | some a' => rw [hread] at h; cases h; rfl

theorem optional_eq {α : Type} {fields : List (String × Value)} {name : String}
    {read : Value → Option α} (hnothing : read .nothing = none) {a : Option α}
    (h : optional fields name read = .ok a) {v : Value} (hv : fields.lookup name = some v) :
    read v = a := by
  rw [optional, hv] at h
  cases v with
  | nothing => cases h; exact hnothing
  | bool | int | real | text | list | table =>
    dsimp only at h
    split at h
    · next a' hread => cases h; exact hread
    · cases h

/-- The fields of a section are those that paths through the section lead to. -/
theorem sectionFields_eq {v : Value} {name : String} {names : List String}
    {fields : List (String × Value)} (h : sectionFields v name names = .ok fields) {key : String}
    {x : Value} (hx : v.at? [name, key] = some x) : fields.lookup key = some x := by
  rw [Value.at?] at hx
  cases hsection : v.get? name with
  | none => rw [hsection] at hx; cases hx
  | some w =>
    have hfields : w.record? names = some fields := required_eq h hsection
    rw [hsection, Option.bind_some, Value.at?] at hx
    cases w with
    | table fs =>
      cases hfields
      cases hget : (Value.table fields).get? key with
      | none => rw [hget] at hx; cases hx
      | some y =>
        rw [hget] at hx
        cases hx
        exact hget
    | nothing | bool | int | real | text | list => cases hx

theorem exists_of_bind {α β : Type} {x : Except Error α} {f : α → Except Error β} {b : β}
    (h : (x >>= f) = .ok b) : ∃ a, x = .ok a ∧ f a = .ok b := by
  cases x with
  | error e => cases h
  | ok a => exact ⟨a, rfl, h⟩

/-- Settings that a value gives are what stands in it at their paths. -/
theorem reads_of_ofValue {v : Value} {s : Settings} (h : ofValue v = .ok s) (key : Key)
    {x : Value} (hx : v.at? key.path = some x) : key.Reads s x := by
  obtain ⟨logging, hlogging, h⟩ := exists_of_bind h
  obtain ⟨level, hlevel, h⟩ := exists_of_bind h
  obtain ⟨format, hformat, h⟩ := exists_of_bind h
  obtain ⟨interpreter, hinterpreter, h⟩ := exists_of_bind h
  obtain ⟨pauseWait, hpauseWait, h⟩ := exists_of_bind h
  obtain ⟨simulation, hsimulation, h⟩ := exists_of_bind h
  obtain ⟨probability, hprobability, h⟩ := exists_of_bind h
  obtain ⟨seed, hseed, h⟩ := exists_of_bind h
  obtain ⟨maxSteps, hmaxSteps, h⟩ := exists_of_bind h
  cases h
  cases key with
  | level => exact required_eq hlevel (sectionFields_eq hlogging hx)
  | format => exact required_eq hformat (sectionFields_eq hlogging hx)
  | pauseWait => exact required_eq hpauseWait (sectionFields_eq hinterpreter hx)
  | failureProbability => exact required_eq hprobability (sectionFields_eq hsimulation hx)
  | seed => exact congrArg _ (optional_eq rfl hseed (sectionFields_eq hsimulation hx))
  | maxSteps => exact required_eq hmaxSteps (sectionFields_eq hsimulation hx)

theorem validate_eq {s s' : Settings} (h : validate s = .ok s') : s' = s := by
  unfold validate at h
  split at h
  · cases h
  · split at h
    · cases h
    · split at h
      · cases h
      · cases h
        rfl

/-! ## Precedence -/

/-- Settings that come from a file and an environment, and a log level that may be asked for. Each
is what the last of the layers gives that says anything about it. -/
structure Layered (file : Value) (env : Variables) (level : Option String) (s : Settings) :
    Prop where
  /-- The log level that is asked for wins. -/
  asked : ∀ l, level = some l → s.level = l
  fromEnvironment : ∀ (key : Key) x, (key = .level → level = none) →
    (Layer.ofVariables env).Gives key.path x → key.Reads s x
  fromFile : ∀ (key : Key) x, (key = .level → level = none) →
    (Layer.ofVariables env).Silent key.path → (Layer.ofFile file).Gives key.path x →
      key.Reads s x
  fromDefaults : ∀ key : Key, (key = .level → level = none) →
    (Layer.ofVariables env).Silent key.path → (Layer.ofFile file).Silent key.path →
      ∃ x, (toValue {}).at? key.path = some x ∧ key.Reads s x

theorem layered_combine {file : Value} {env : Variables} {level : Option String} {s : Settings}
    (h : combine file env level = .ok s) : Layered file env level s := by
  obtain ⟨given, hgiven, hvalid⟩ := exists_of_bind h
  rw [Layer.overlayFile_eq, Layer.overlay_eq] at hgiven
  obtain rfl := validate_eq hvalid
  -- but for the log level, the settings are those that the layers give
  have hreads : ∀ (key : Key) x, (key = .level → level = none) →
      (Layer.laidOver (Layer.laidOver (toValue {}) (Layer.ofFile file)) (Layer.ofVariables env)).at?
        key.path = some x → key.Reads { given with level := level.getD given.level } x := by
    intro key x hlevel hx
    have hread := reads_of_ofValue hgiven key hx
    cases key with
    | level =>
      rw [hlevel rfl]
      exact hread
    | format | pauseWait | failureProbability | seed | maxSteps => exact hread
  refine
    { asked := fun l hl => by rw [hl]; rfl
      fromEnvironment := fun key x hlevel hgives => hreads key x hlevel (hgives.at?_laidOver _)
      fromFile := fun key x hlevel hsilent hgives => hreads key x hlevel ?_
      fromDefaults := fun key hlevel hsilent hsilent' => ?_ }
  · rw [hsilent.at?_laidOver, hgives.at?_laidOver]
  · have hdefault : ∃ x, (toValue {}).at? key.path = some x := by
      cases key <;> exact ⟨_, rfl⟩
    obtain ⟨x, hx⟩ := hdefault
    refine ⟨x, hx, hreads key x hlevel ?_⟩
    rw [hsilent.at?_laidOver, hsilent'.at?_laidOver, hx]

/-- Settings that are loaded are what the last of the layers gives: the environment goes before the
settings file, and this before the defaults. -/
theorem layered_load (files : FileReader Id) {env : Variables} {r : Request} {s : Settings}
    (h : load files env r = .ok s) :
    ∃ file, fromFile files (r.path <|> (environment files env r).lookup pathVariable) =
        .ok file ∧ Layered file (environment files env r) r.level s := by
  have hload : load files env r =
      match fromFile files (r.path <|> (environment files env r).lookup pathVariable) with
      | .ok file => combine file (environment files env r) r.level
      | .error e => .error e := rfl
  rw [hload] at h
  split at h
  · next file hfile => exact ⟨file, hfile, layered_combine h⟩
  · cases h

/-! ## Variables -/

namespace Value

theorem isPlain_ofVariable (s : String) : (ofVariable s).isPlain = true := by
  unfold ofVariable
  split
  · rfl
  · split
    · rfl
    · split
      · rfl
      · split <;> rfl

theorem overlay_of_isPlain (v : Value) {new : Value} (h : new.isPlain = true) :
    v.overlay new = new := by
  unfold overlay
  split
  · cases h
  · rfl

/-- What is laid over the place where a path of fields leads is what stands there. -/
theorem at?_overlayAt_self (v : Value) {new : Value} (h : new.isPlain = true)
    (path : List String) : (v.overlayAt new (path.map Step.field)).at? path = some new := by
  induction path generalizing v with
  | nil => exact congrArg some (v.overlay_of_isPlain h)
  | cons key path ih => rw [List.map_cons, overlayAt, at?_set_self, ih]

end Value

/-- The last variable for a setting gives it, if those after it say nothing about the setting. -/
theorem gives_variable {before after : Variables} {name value : String} {key : Key}
    (hname : Environment.path? name = some (key.path.map Step.field))
    (hafter : (Layer.ofVariables after).Silent key.path) :
    (Layer.ofVariables (before ++ (name, value) :: after)).Gives key.path (.ofVariable value) := by
  have hplain := Value.isPlain_ofVariable value
  have hlayer : Layer.ofVariables (before ++ (name, value) :: after) =
      Layer.ofVariables before ++
        (key.path.map Step.field, .ofVariable value) :: Layer.ofVariables after := by
    simp only [Layer.ofVariables, List.filterMap_append, List.filterMap_cons, hname,
      Option.map_some]
  refine ⟨hplain, ?_⟩
  rw [hlayer, Layer.laidOver, List.foldl_append, List.foldl_cons]
  exact (hafter.at?_laidOver _).trans (Value.at?_overlayAt_self _ hplain key.path)

/-- Each setting has a variable that gives it, whatever else is set before. -/
theorem exists_variable_gives (key : Key) :
    ∃ name ∈ Environment.names, ∀ (before after : Variables) (value : String),
      (Layer.ofVariables after).Silent key.path →
        (Layer.ofVariables (before ++ (name, value) :: after)).Gives key.path
          (.ofVariable value) := by
  obtain ⟨name, hmem, hname⟩ := key.exists_variable
  exact ⟨name, hmem, fun _ _ _ hafter => gives_variable hname hafter⟩

end Settings
end TaskTable
