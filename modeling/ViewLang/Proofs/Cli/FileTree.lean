import ViewLang.Cli.FileTree
import ViewLang.Proofs.Success

namespace ViewLang.Cli.FileTree

theorem entry?_root (t : FileTree) : t.entry? [] = some .directory := rfl

theorem lookup_replace (entries : List (Place × Entry)) (p q : Place) (e : Entry) :
    (entries.map fun (place, old) => if place = p then (place, e) else (place, old)).lookup q =
      if q = p then (entries.lookup p).map fun _ => e else entries.lookup q := by
  induction entries with
  | nil => simp
  | cons entry entries ih =>
    obtain ⟨place, old⟩ := entry
    rw [List.map_cons, List.lookup_cons, List.lookup_cons, List.lookup_cons, ih]
    by_cases here : place = p
    · subst here
      by_cases same : q = place
      · simp [same]
      · simp [same, beq_false_of_ne same]
    · by_cases same : q = p
      · subst same
        simp [here, beq_false_of_ne (Ne.symm here)]
      · simp [here, same]

/-- Setting a place changes what is there and nothing else. -/
theorem entry?_set (t : FileTree) {p : Place} (inside : p ≠ []) (e : Entry) (q : Place) :
    FileTree.entry? (t.set p e) q = if q = p then some e else t.entry? q := by
  by_cases root : q = []
  · rw [root, if_neg inside.symm]
    rfl
  · unfold entry?
    rw [if_neg root, if_neg root, set]
    split
    · rename_i known
      obtain ⟨old, found⟩ := Option.isSome_iff_exists.mp known
      rw [lookup_replace, found]
      rfl
    · rename_i unknown
      rw [Option.not_isSome_iff_eq_none] at unknown
      rw [List.lookup_append, List.lookup_cons, List.lookup_nil]
      by_cases same : q = p
      · simp [same, unknown]
      · simp [same, beq_false_of_ne same]

inductive Leads (t : FileTree) (p : Place) (step : String) : Place → Prop
  | stay (dot : step = ".") (start : t.entry? p = some .directory) : Leads t p step p
  | up (dots : step = "..") (start : t.entry? p = some .directory) (inside : p ≠ []) : Leads t p step p.dropLast
  | down (plain : step ≠ "." ∧ step ≠ "..") (start : t.entry? p = some .directory)
    (short : step.utf8ByteSize ≤ maxName) (present : (t.entry? (p ++ [step])).isSome = true) :
    Leads t p step (p ++ [step])

theorem walk_cons {t : FileTree} {p q : Place} {step : String} {steps : List String} :
    t.walk p (step :: steps) = .ok q ↔ ∃ next, Leads t p step next ∧ t.walk next steps = .ok q := by
  constructor
  · intro led
    rw [walk] at led
    split_ifs at led with closed dot dots root long absent
    · exact ⟨p, .stay dot (not_not.mp closed), led⟩
    · exact ⟨p.dropLast, .up dots (not_not.mp closed) root, led⟩
    · rw [Bool.not_eq_true, Option.isNone_eq_false_iff] at absent
      exact ⟨p ++ [step], .down ⟨dot, dots⟩ (not_not.mp closed) (Nat.le_of_not_lt long) absent, led⟩
  · rintro ⟨next, one, rest⟩
    rw [walk]
    cases one with
    | stay dot start => rw [if_neg (not_not.mpr start), if_pos dot, rest]
    | up dots start inside =>
      have moves : step ≠ "." := by
        rw [dots]
        decide
      rw [if_neg (not_not.mpr start), if_neg moves, if_pos dots, if_neg inside, rest]
    | down plain start short present =>
      have there : ¬ (t.entry? (p ++ [step])).isNone = true := by
        rw [Bool.not_eq_true, Option.isNone_eq_false_iff]
        exact present
      rw [if_neg (not_not.mpr start), if_neg plain.1, if_neg plain.2, if_neg (Nat.not_lt.mpr short), if_neg there, rest]

theorem walk_append {t : FileTree} {p q : Place} {first second : List String} :
    t.walk p (first ++ second) = .ok q ↔ ∃ middle, t.walk p first = .ok middle ∧ t.walk middle second = .ok q := by
  induction first generalizing p with
  | nil => simp [walk]
  | cons step steps ih =>
    simp only [List.cons_append, walk_cons, ih]
    constructor
    · rintro ⟨next, one, middle, more, rest⟩
      exact ⟨middle, ⟨next, one, more⟩, rest⟩
    · rintro ⟨middle, ⟨next, one, more⟩, rest⟩
      exact ⟨next, one, middle, more, rest⟩

theorem walk_filter {t : FileTree} {p q : Place} {steps : List String} (led : t.walk p steps = .ok q) :
    t.walk p (steps.filter (· != ".")) = .ok q := by
  induction steps generalizing p with
  | nil => exact led
  | cons step steps ih =>
    obtain ⟨next, one, rest⟩ := walk_cons.mp led
    by_cases stays : step = "."
    · rw [List.filter_cons_of_neg (by simpa using stays)]
      cases one with
      | stay dot start => exact ih rest
      | up dots start inside => exact absurd (stays.symm.trans dots) (by decide)
      | down plain start short present => exact absurd stays plain.1
    · rw [List.filter_cons_of_pos (by simpa using stays)]
      exact walk_cons.mpr ⟨next, one, ih rest⟩

structure Extends (t t' : FileTree) : Prop where
  directory : ∀ p, t.entry? p = some .directory → t'.entry? p = some .directory
  present : ∀ p, (t.entry? p).isSome = true → (t'.entry? p).isSome = true

theorem Extends.trans {a b c : FileTree} (first : Extends a b) (second : Extends b c) : Extends a c :=
  ⟨fun p there => second.directory p (first.directory p there), fun p there => second.present p (first.present p there)⟩

theorem Extends.set {t : FileTree} {p : Place} (inside : p ≠ []) (e : Entry)
    (free : t.entry? p = some .directory → e = .directory) : Extends t (t.set p e) := by
  constructor
  · intro q there
    rw [entry?_set t inside]
    split
    · rename_i same
      rw [free (same ▸ there)]
    · exact there
  · intro q there
    rw [entry?_set t inside]
    split
    · rfl
    · exact there

theorem Extends.walk {t t' : FileTree} (extended : Extends t t') {p q : Place} {steps : List String}
    (led : t.walk p steps = .ok q) : t'.walk p steps = .ok q := by
  induction steps generalizing p with
  | nil => exact led
  | cons step steps ih =>
    obtain ⟨next, one, rest⟩ := walk_cons.mp led
    refine walk_cons.mpr ⟨next, ?_, ih rest⟩
    cases one with
    | stay dot start => exact .stay dot (extended.directory p start)
    | up dots start inside => exact .up dots (extended.directory p start) inside
    | down plain start short present =>
      exact .down plain (extended.directory p start) short (extended.present _ present)

def Nameable (name : String) : Prop := (name ≠ "." ∧ name ≠ "..") ∧ name.utf8ByteSize ≤ maxName

theorem locateNew_concat (t : FileTree) (way : List String) (name : String) :
    t.locateNew (way ++ [name]) = t.walk [] way >>= fun dir =>
      if t.entry? dir ≠ some .directory then .error .notDirectory
      else if name = "." ∨ name = ".." then .error .exists_
      else if name.utf8ByteSize > maxName then .error .nameTooLong else .ok (dir, name) := by
  rw [locateNew, List.dropLast_concat, List.getLast?_concat]
  refine congrArg _ (funext fun dir => ?_)
  split_ifs with closed dot long
  · rfl
  · rcases dot with rfl | rfl <;> rfl
  · obtain ⟨_, _⟩ := not_or.mp dot
    simp [long]
  · obtain ⟨_, _⟩ := not_or.mp dot
    simp [long]

theorem locateNew_ok {t : FileTree} {steps : List String} {dir : Place} {name : String} :
    t.locateNew steps = .ok (dir, name) ↔ ∃ way, steps = way ++ [name] ∧ t.walk [] way = .ok dir ∧
      t.entry? dir = some .directory ∧ Nameable name := by
  rcases List.eq_nil_or_concat steps with rfl | ⟨way, last, rfl⟩
  · simp [locateNew, walk, entry?_root, Bind.bind, Except.bind]
  · rw [List.concat_eq_append, locateNew_concat, bind_ok_iff]
    constructor
    · rintro ⟨found, led, result⟩
      split_ifs at result with closed dot long
      cases result
      exact ⟨way, rfl, led, not_not.mp closed, not_or.mp dot, Nat.le_of_not_lt long⟩
    · rintro ⟨other, same, led, start, plain, short⟩
      obtain ⟨rfl, rfl⟩ := List.append_singleton_inj.mp same
      refine ⟨dir, led, ?_⟩
      rw [if_neg (not_not.mpr start), if_neg (not_or.mpr plain), if_neg (Nat.not_lt.mpr short)]

/-- A place that is set in a directory can be reached through it. -/
theorem walk_set {t : FileTree} {way : List String} {dir : Place} {name : String} {e : Entry}
    (led : t.walk [] way = .ok dir) (start : t.entry? dir = some .directory) (nameable : Nameable name)
    (free : t.entry? (dir ++ [name]) = some .directory → e = .directory) :
    (t.set (dir ++ [name]) e).walk [] (way ++ [name]) = .ok (dir ++ [name]) := by
  have inside : dir ++ [name] ≠ [] := List.concat_ne_nil name dir
  have extended := Extends.set inside e free
  refine walk_append.mpr ⟨dir, extended.walk led, walk_cons.mpr ⟨_, .down nameable.1 ?_ nameable.2 ?_, rfl⟩⟩
  · exact extended.directory dir start
  · rw [entry?_set t inside, if_pos rfl]
    rfl

structure Grown (names : List String) (t t' : FileTree) : Prop where
  kept : ∀ p e, t.entry? p = some e → t'.entry? p = some e
  made : ∀ p, t.entry? p = none → t'.entry? p = none ∨
    t'.entry? p = some .directory ∧ ∃ front, front <+: names ∧ t'.walk [] front = .ok p

theorem Grown.refl (names : List String) (t : FileTree) : Grown names t t :=
  ⟨fun _ _ there => there, fun _ absent => .inl absent⟩

theorem Grown.extends {names : List String} {t t' : FileTree} (grown : Grown names t t') : Extends t t' := by
  refine ⟨fun p there => grown.kept p _ there, fun p there => ?_⟩
  obtain ⟨e, found⟩ := Option.isSome_iff_exists.mp there
  rw [grown.kept p e found]
  rfl

theorem Grown.trans {names : List String} {a b c : FileTree} (first : Grown names a b) (second : Grown names b c) :
    Grown names a c := by
  refine ⟨fun p e there => second.kept p e (first.kept p e there), fun p absent => ?_⟩
  rcases first.made p absent with still | ⟨made, front, among, led⟩
  · exact second.made p still
  · exact .inr ⟨second.kept p _ made, front, among, second.extends.walk led⟩

theorem Grown.more {names more : List String} {t t' : FileTree} (grown : Grown names t t') (among : names <+: more) :
    Grown more t t' := by
  refine ⟨grown.kept, fun p absent => ?_⟩
  rcases grown.made p absent with still | ⟨made, front, inside, led⟩
  · exact .inl still
  · exact .inr ⟨made, front, inside.trans among, led⟩

def HasDirectory (t : FileTree) (steps : List String) : Prop :=
  ∃ p, t.walk [] steps = .ok p ∧ t.entry? p = some .directory

theorem isDirectory_iff {t : FileTree} {steps : List String} : t.isDirectory steps = true ↔ t.HasDirectory steps := by
  rw [isDirectory, HasDirectory]
  cases t.walk [] steps with
  | error e => simp
  | ok p => simp

theorem makeDirectory_ok {t t' : FileTree} {steps : List String} (made : t.makeDirectory steps = .ok t') :
    Grown (steps.filter (· != ".")) t t' ∧ t'.HasDirectory steps := by
  rw [makeDirectory, bind_ok_iff] at made
  obtain ⟨⟨dir, name⟩, located, result⟩ := made
  obtain ⟨way, rfl, led, start, nameable⟩ := locateNew_ok.mp located
  have inside : dir ++ [name] ≠ [] := List.concat_ne_nil name dir
  dsimp only at result
  split_ifs at result with there
  cases result
  rw [Option.not_isSome_iff_eq_none] at there
  have reached := walk_set (e := .directory) led start nameable fun _ => rfl
  refine ⟨⟨fun p e found => ?_, fun p absent => ?_⟩, dir ++ [name], reached, ?_⟩
  · rw [entry?_set t inside]
    split
    · rename_i same
      rw [same, there] at found
      cases found
    · exact found
  · rw [entry?_set t inside]
    split
    · rename_i same
      rw [same]
      exact .inr ⟨rfl, _, List.prefix_rfl, walk_filter reached⟩
    · exact .inl absent
  · rw [entry?_set t inside, if_pos rfl]

theorem ensure_grown {t t' : FileTree} {steps : List String} {result : Except FileError Unit}
    (ensured : t.ensure steps = (t', result)) :
    Grown (steps.filter (· != ".")) t t' ∧ (result = .ok () → t'.HasDirectory steps) := by
  rw [ensure] at ensured
  cases made : t.makeDirectory steps with
  | ok t'' =>
    rw [made] at ensured
    cases ensured
    obtain ⟨grown, there⟩ := makeDirectory_ok made
    exact ⟨grown, fun _ => there⟩
  | error e =>
    rw [made] at ensured
    cases ensured
    refine ⟨.refl _ t, fun succeeded => isDirectory_iff.mp ?_⟩
    split_ifs at succeeded with there
    exact there

/-- Either a directory is made at once, or those around it first. -/
theorem makeAll_cases (t : FileTree) (steps : List String) (name : String) (outer : List String) :
    t.makeAll steps (name :: outer) = t.ensure steps ∨
      t.makeAll steps (name :: outer) = match t.makeAll (name :: outer).reverse outer with
        | (t, .ok ()) => t.ensure steps
        | failed => failed := by
  rw [makeAll, ensure]
  cases t.makeDirectory steps with
  | ok made => exact .inl rfl
  | error e =>
    cases e with
    | missing => exact .inr rfl
    | _ => exact .inl rfl

theorem makeAll_nil (t : FileTree) (steps : List String) : t.makeAll steps [] = t.ensure steps := by
  rw [makeAll, ensure]
  cases t.makeDirectory steps with
  | ok made => rfl
  | error e =>
    cases e with
    | missing => rfl
    | _ => rfl

/-- Making a directory with those around it: the outermost is made first, and each step of the way back adds one. -/
theorem makeAll_grown {around steps : List String} {t t' : FileTree} {result : Except FileError Unit}
    (inside : around.reverse <+: steps.filter (· != ".")) (made : t.makeAll steps around = (t', result)) :
    Grown (steps.filter (· != ".")) t t' ∧ (result = .ok () → t'.HasDirectory steps) := by
  induction around generalizing t t' steps result with
  | nil =>
    rw [makeAll_nil] at made
    exact ensure_grown made
  | cons name outer ih =>
    rcases makeAll_cases t steps name outer with once | first
    · rw [once] at made
      exact ensure_grown made
    · have plain : (name :: outer).reverse.filter (· != ".") = (name :: outer).reverse :=
        List.filter_eq_self.mpr fun step member => (List.mem_filter.mp (inside.subset member)).2
      have within : outer.reverse <+: (name :: outer).reverse.filter (· != ".") := by
        rw [plain, List.reverse_cons]
        exact List.prefix_append _ _
      rw [first] at made
      cases around : t.makeAll (name :: outer).reverse outer with
      | mk middle built =>
        obtain ⟨grown, -⟩ := ih within around
        rw [plain] at grown
        rw [around] at made
        cases built with
        | error e =>
          cases made
          exact ⟨grown.more inside, nofun⟩
        | ok _ =>
          obtain ⟨last, there⟩ := ensure_grown made
          exact ⟨(grown.more inside).trans last, there⟩

theorem makeAll_of_there {t : FileTree} {steps : List String} (there : t.HasDirectory steps) (around : List String) :
    t.makeAll steps around = (t, .ok ()) := by
  obtain ⟨p, led, directory⟩ := there
  have refused : t.makeDirectory steps = .error .exists_ := by
    rcases List.eq_nil_or_concat steps with rfl | ⟨way, name, rfl⟩
    · rfl
    · rw [List.concat_eq_append] at led ⊢
      obtain ⟨dir, first, last⟩ := walk_append.mp led
      obtain ⟨next, one, -⟩ := walk_cons.mp last
      rw [makeDirectory, locateNew_concat, first]
      change (if _ then _ else _) >>= _ = _
      cases one with
      | stay dot start =>
        rw [if_neg (not_not.mpr start), if_pos (.inl dot)]
        rfl
      | up dots start _ =>
        rw [if_neg (not_not.mpr start), if_pos (.inr dots)]
        rfl
      | down plain start short present =>
        rw [if_neg (not_not.mpr start), if_neg (not_or.mpr plain), if_neg (Nat.not_lt.mpr short)]
        exact if_pos present
  have found : t.isDirectory steps = true := isDirectory_iff.mpr ⟨p, led, directory⟩
  rw [makeAll.eq_def, refused]
  dsimp only
  rw [if_pos found]

theorem makeDirectories_ok {t t' : FileTree} {path : String} (made : t.makeDirectories path = (t', .ok ())) :
    Grown ((Path.segments path).filter (· != ".")) t t' ∧ t'.HasDirectory (Path.segments path) ∧
      (t.HasDirectory (Path.segments path) → t' = t) := by
  rw [makeDirectories] at made
  split_ifs at made with empty
  · cases made
    rw [String.isEmpty_iff] at empty
    have here : Path.segments path = [] := by simp [empty, Path.segments]
    rw [here]
    exact ⟨.refl _ t, ⟨[], rfl, rfl⟩, fun _ => rfl⟩
  · split at made
    · cases made
    · have inside : (Path.around (Path.segments path)).reverse.reverse <+: (Path.segments path).filter (· != ".") := by
        rw [List.reverse_reverse]
        exact List.dropLast_prefix _
      obtain ⟨grown, there⟩ := makeAll_grown inside made
      refine ⟨grown, there rfl, fun before => ?_⟩
      rw [makeSteps, makeAll_of_there before] at made
      cases made
      rfl

structure Takes (t : FileTree) (dir : Place) (path name : String) : Prop where
  path_ok : checkPath path = .ok ()
  start : t.entry? dir = some .directory
  nameable : Nameable name
  free : t.entry? (dir ++ [name]) ≠ some .directory

section

variable {t t' : FileTree} {dir : Place} {way : List String}

theorem write_ok {path name text : String} (led : t.walk [] way = .ok dir)
    (split : Path.segments path = way ++ [name]) :
    t.write path text = .ok t' ↔ t.Takes dir path name ∧ t' = t.set (dir ++ [name]) (.file text.toUTF8) := by
  simp only [write, bind_ok_iff]
  constructor
  · rintro ⟨_, checked, ⟨found, last⟩, located, result⟩
    obtain ⟨other, same, reached, start, nameable⟩ := locateNew_ok.mp located
    obtain ⟨rfl, rfl⟩ := List.append_singleton_inj.mp (split.symm.trans same)
    cases led.symm.trans reached
    split at result
    · cases result
    · rename_i free
      cases result
      exact ⟨⟨checked, start, nameable, free⟩, rfl⟩
  · rintro ⟨⟨checked, start, nameable, free⟩, rfl⟩
    refine ⟨(), checked, (dir, name), locateNew_ok.mpr ⟨way, split, led, start, nameable⟩, ?_⟩
    split
    · exact absurd ‹_› free
    · rfl

theorem Takes.extends {path name : String} (takes : t.Takes dir path name) (content : ByteArray) :
    Extends t (t.set (dir ++ [name]) (.file content)) :=
  Extends.set (List.concat_ne_nil name dir) _ fun directory => absurd directory takes.free

/-- Writing one file does not decide whether another can be written. -/
theorem Takes.set_iff {path other name next : String} (takes : t.Takes dir path name) (content : ByteArray) :
    (t.set (dir ++ [name]) (.file content)).Takes dir other next ↔ t.Takes dir other next := by
  have inside : dir ++ [name] ≠ [] := List.concat_ne_nil name dir
  have free : FileTree.entry? (t.set (dir ++ [name]) (.file content)) (dir ++ [next]) ≠ some .directory ↔
      t.entry? (dir ++ [next]) ≠ some .directory := by
    rw [entry?_set t inside]
    split
    · rename_i same
      rw [same]
      exact iff_of_true nofun takes.free
    · exact Iff.rfl
  constructor
  · intro after
    exact ⟨after.path_ok, takes.start, after.nameable, free.mp after.free⟩
  · intro before
    exact ⟨before.path_ok, (takes.extends content).directory dir takes.start, before.nameable, free.mpr before.free⟩

variable {files : List (String × String)} {path : String → String}

/-- Files that can be written into a directory one by one can be written one after the other. -/
theorem writeAll_succeeds (led : t.walk [] way = .ok dir)
    (named : ∀ f ∈ files, Path.segments (path f.1) = way ++ [f.1]) :
    (t.writeAll (files.map fun (name, text) => (path name, text))).2 = .ok () ↔
      ∀ f ∈ files, t.Takes dir (path f.1) f.1 := by
  induction files generalizing t with
  | nil => simp [writeAll]
  | cons f files ih =>
    obtain ⟨name, text⟩ := f
    obtain ⟨split, others⟩ := List.forall_mem_cons.mp named
    rw [List.map_cons, writeAll, List.forall_mem_cons]
    cases written : t.write (path name) text with
    | error e =>
      refine iff_of_false nofun fun takes => ?_
      rw [(write_ok led split).mpr ⟨takes.1, rfl⟩] at written
      cases written
    | ok after =>
      obtain ⟨takes, rfl⟩ := (write_ok led split).mp written
      have extended := takes.extends text.toUTF8
      dsimp only
      rw [ih (extended.walk led) others, and_iff_right takes]
      simp only [takes.set_iff]

/-- Writing files of different names changes these files and nothing else. -/
theorem writeAll_ok (led : t.walk [] way = .ok dir) (named : ∀ f ∈ files, Path.segments (path f.1) = way ++ [f.1])
    (distinct : (files.map (·.1)).Nodup)
    (written : t.writeAll (files.map fun (name, text) => (path name, text)) = (t', .ok ())) :
    Extends t t' ∧ (∀ f ∈ files, t'.entry? (dir ++ [f.1]) = some (.file f.2.toUTF8)) ∧
      ∀ p, (∀ f ∈ files, p ≠ dir ++ [f.1]) → t'.entry? p = t.entry? p := by
  induction files generalizing t with
  | nil =>
    cases written
    exact ⟨⟨fun _ there => there, fun _ there => there⟩, nofun, fun _ _ => rfl⟩
  | cons f files ih =>
    obtain ⟨name, text⟩ := f
    obtain ⟨split, others⟩ := List.forall_mem_cons.mp named
    obtain ⟨fresh, distinct⟩ := List.nodup_cons.mp distinct
    have inside : dir ++ [name] ≠ [] := List.concat_ne_nil name dir
    rw [List.map_cons, writeAll] at written
    cases first : t.write (path name) text with
    | error e =>
      rw [first] at written
      cases written
    | ok after =>
      rw [first] at written
      obtain ⟨takes, rfl⟩ := (write_ok led split).mp first
      have extended := takes.extends text.toUTF8
      obtain ⟨further, contents, rest⟩ := ih (extended.walk led) others distinct written
      refine ⟨extended.trans further, List.forall_mem_cons.mpr ⟨?_, contents⟩, fun p elsewhere => ?_⟩
      · rw [rest, entry?_set t inside, if_pos rfl]
        intro f member same
        have again : name = f.1 := (List.append_singleton_inj.mp same).2
        exact fresh (List.mem_map.mpr ⟨f, member, again.symm⟩)
      · obtain ⟨different, elsewhere⟩ := List.forall_mem_cons.mp elsewhere
        rw [rest p elsewhere, entry?_set t inside, if_neg different]

end

end ViewLang.Cli.FileTree
