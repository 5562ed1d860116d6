import Mathlib.Data.List.Nodup
import Mathlib.Data.String.Basic
import ViewLang.Proofs.Go.BalancedFile
import ViewLang.Proofs.Go.MarkedFile
import ViewLang.Proofs.Success

namespace ViewLang.Go

section

variable {α : Type} [BEq α] [LawfulBEq α]

theorem mem_eraseReps {a : α} {as : List α} (member : a ∈ as) : a ∈ as.eraseReps := by
  have loop (rest : List α) : ∀ first seen, a ∈ first :: rest ∨ a ∈ seen →
      a ∈ List.eraseRepsBy.loop (· == ·) first rest seen := by
    induction rest with
    | nil =>
      intro first seen listed
      rw [List.eraseRepsBy.loop, List.mem_reverse]
      grind
    | cons b rest ih =>
      intro first seen listed
      rw [List.eraseRepsBy.loop]
      split
      · rename_i same
        have : first = b := eq_of_beq same
        exact ih first seen (by grind)
      · exact ih b (first :: seen) (by grind)
  cases as with
  | nil => cases member
  | cons first rest => exact loop rest first [] (.inl member)

theorem eraseReps_nodup {le : α → α → Prop} (antisymm : ∀ a b, le a b → le b a → a = b) {as : List α}
    (sorted : as.Pairwise le) : as.eraseReps.Nodup := by
  have loop (rest : List α) : ∀ first seen, (first :: rest).Pairwise le → (∀ a ∈ seen, a ∉ first :: rest) →
      seen.Nodup → (List.eraseRepsBy.loop (· == ·) first rest seen).Nodup := by
    induction rest with
    | nil =>
      intro first seen _ apart distinct
      rw [List.eraseRepsBy.loop, List.nodup_reverse, List.nodup_cons]
      exact ⟨fun again => apart first again List.mem_cons_self, distinct⟩
    | cons b rest ih =>
      intro first seen sorted apart distinct
      obtain ⟨below, others⟩ := List.pairwise_cons.mp sorted
      rw [List.eraseRepsBy.loop]
      split
      · rename_i same
        have same : first = b := eq_of_beq same
        subst same
        exact ih first seen others (fun a member again => apart a member (List.mem_cons_of_mem _ again)) distinct
      · rename_i differs
        -- Nothing behind `b` is below it, so the element in front of `b` does not come again.
        have last : first ∉ b :: rest := by
          intro again
          rcases List.mem_cons.mp again with same | later
          · simp [same] at differs
          · have same := antisymm first b (below b List.mem_cons_self) ((List.pairwise_cons.mp others).1 first later)
            simp [same] at differs
        refine ih b (first :: seen) others ?_ (List.nodup_cons.mpr ⟨?_, distinct⟩)
        · intro a member again
          rcases List.mem_cons.mp member with rfl | earlier
          · exact last again
          · exact apart a earlier (List.mem_cons_of_mem _ again)
        · exact fun again => apart first again List.mem_cons_self
  cases as with
  | nil => exact List.nodup_nil
  | cons first rest => exact loop rest first [] sorted (fun _ none => absurd none List.not_mem_nil) List.nodup_nil

end

namespace ImportLine

theorem le_iff {a b : ImportLine} : a.le b = true ↔ a.path < b.path ∨ a.path = b.path ∧ a.line ≤ b.line := by
  rw [le, Bool.or_eq_true, Bool.and_eq_true, decide_eq_true_eq, beq_iff_eq, Bool.not_eq_true', decide_eq_false_iff_not,
    not_lt]

theorem le_trans (a b c : ImportLine) (first : a.le b = true) (second : b.le c = true) : a.le c = true := by
  rw [le_iff] at first second ⊢
  rcases first with first | ⟨first, line⟩
  · rcases second with second | ⟨second, _⟩
    · exact .inl (first.trans second)
    · exact .inl (second ▸ first)
  · rcases second with second | ⟨second, line'⟩
    · exact .inl (first ▸ second)
    · exact .inr ⟨first.trans second, line.trans line'⟩

theorem le_total (a b : ImportLine) : (a.le b || b.le a) = true := by
  rw [Bool.or_eq_true, le_iff, le_iff]
  rcases lt_trichotomy a.path b.path with below | same | above
  · exact .inl (.inl below)
  · rcases Std.le_total (a := a.line) (b := b.line) with line | line
    · exact .inl (.inr ⟨same, line⟩)
    · exact .inr (.inr ⟨same.symm, line⟩)
  · exact .inr (.inl above)

theorem le_antisymm (a b : ImportLine) (first : a.le b = true) (second : b.le a = true) : a = b := by
  rw [le_iff] at first second
  obtain ⟨path, line⟩ := a
  obtain ⟨path', line'⟩ := b
  rcases first with first | ⟨first, below⟩
  · rcases second with second | ⟨second, _⟩
    · exact absurd (first.trans second) (lt_irrefl _)
    · exact absurd first (second ▸ lt_irrefl _)
  · rcases second with second | ⟨_, above⟩
    · exact absurd second (first ▸ lt_irrefl _)
    · cases first
      exact congrArg (mk path) (below.antisymm above)

theorem mem_sorted {i : ImportLine} {is : List ImportLine} : i ∈ sorted is ↔ i ∈ is :=
  ⟨fun member => sorted_subset is member, fun member => mem_eraseReps (List.mem_mergeSort.mpr member)⟩

theorem sorted_nodup (is : List ImportLine) : (sorted is).Nodup :=
  eraseReps_nodup le_antisymm (List.pairwise_mergeSort le_trans le_total is)

end ImportLine

inductive ImportBlock : Doc → List ImportLine → Prop
  | none : ImportBlock [] []
  | single (i : ImportLine) : ImportBlock (Doc.line ("import " ++ i.line) ++ Doc.blank) [i]
  | groups (groups : List (List ImportLine)) :
    ImportBlock (Doc.block "import ("
      (Doc.blank.intercalate (groups.map fun group => group.map fun i => .text 0 i.line)) ")" ++ Doc.blank)
      groups.flatten

def listed (is : List ImportLine) : List ImportLine :=
  ImportLine.sorted (is.filter fun i => !i.isExternal) ++ ImportLine.sorted (is.filter (·.isExternal))

theorem importDoc_lists (is : List ImportLine) : ImportBlock (importDoc is) (listed is) := by
  have kept (std external : List ImportLine) : ([std, external].filter (!·.isEmpty)).flatten = std ++ external := by
    cases std <;> cases external <;> simp
  rw [listed, ← kept, importDoc]
  split
  · rename_i none
    rw [none]
    exact .none
  · rename_i single
    rw [single]
    exact .single _
  · exact .groups _

theorem mem_listed {i : ImportLine} {is : List ImportLine} : i ∈ listed is ↔ i ∈ is := by
  rw [listed, List.mem_append, ImportLine.mem_sorted, ImportLine.mem_sorted, List.mem_filter, List.mem_filter]
  cases i.isExternal <;> simp

theorem listed_nodup (is : List ImportLine) : (listed is).Nodup := by
  refine List.nodup_append.mpr ⟨ImportLine.sorted_nodup _, ImportLine.sorted_nodup _, ?_⟩
  rintro i std _ external rfl
  rw [ImportLine.mem_sorted, List.mem_filter] at std external
  simp [external.2] at std

def importOf (config : Config) (uses : Uses) (path : String) : ImportLine :=
  if uses.runtime ∧ path = config.runtimeImport then .runtime config else .plain path

section

variable {config : Config} {u : SourceUnit} {uses : Uses}

/-- An own import that is not replaced by that of the runtime. -/
theorem not_replaced_iff {path : String} : (!(uses.runtime && path == config.runtimeImport)) = true ↔
    ¬ (uses.runtime = true ∧ path = config.runtimeImport) := by
  rw [Bool.not_eq_true', ← Bool.not_eq_true, Bool.and_eq_true, beq_iff_eq]

theorem importOf_of_mem (distinct : config.runtimeImport ≠ "fmt") {i : ImportLine}
    (member : i ∈ imports config u uses) : i = importOf config uses i.path := by
  rw [imports, List.mem_append, List.mem_append] at member
  rcases member with (own | formatting) | runtime
  · obtain ⟨path, kept, rfl⟩ := List.mem_map.mp own
    exact (if_neg (not_replaced_iff.mp (List.mem_filter.mp kept).2)).symm
  · split at formatting
    · rw [List.mem_singleton] at formatting
      rw [formatting]
      exact (if_neg fun same => distinct same.2.symm).symm
    · cases formatting
  · split at runtime
    · rename_i used
      rw [List.mem_singleton] at runtime
      rw [runtime]
      exact (if_pos ⟨used, rfl⟩).symm
    · cases runtime

theorem path_mem_imports {path : String} : path ∈ (imports config u uses).map (·.path) ↔
    path ∈ u.imports.map (·.value) ∨ (path = "fmt" ∧ uses.fmt = true) ∨
      (path = config.runtimeImport ∧ uses.runtime = true) := by
  have own : path ∈ ((((u.imports.map (·.value)).filter fun path =>
      !(uses.runtime && path == config.runtimeImport)).map ImportLine.plain).map (·.path)) ↔
      path ∈ u.imports.map (·.value) ∧ ¬ (uses.runtime = true ∧ path = config.runtimeImport) := by
    have paths : (fun i : ImportLine => i.path) ∘ ImportLine.plain = id := rfl
    rw [List.map_map, paths, List.map_id, List.mem_filter, not_replaced_iff]
  have formatting : path ∈ ((if uses.fmt && !(u.imports.map (·.value)).contains "fmt" then [ImportLine.plain "fmt"]
      else []).map (·.path)) ↔ path = "fmt" ∧ uses.fmt = true ∧ "fmt" ∉ u.imports.map (·.value) := by
    split
    · rename_i used
      simp_all [ImportLine.plain]
    · rename_i unused
      simp_all
  have runtime : path ∈ ((if uses.runtime then [ImportLine.runtime config] else []).map (·.path)) ↔
      path = config.runtimeImport ∧ uses.runtime = true := by
    split
    · rename_i used
      simp [used, ImportLine.runtime]
    · rename_i unused
      simp [unused]
  rw [imports, List.map_append, List.map_append, List.mem_append, List.mem_append, own, formatting, runtime]
  constructor
  · rintro ((⟨listed, _⟩ | ⟨same, used, _⟩) | used)
    · exact .inl listed
    · exact .inr (.inl ⟨same, used⟩)
    · exact .inr (.inr used)
  · rintro (listed | ⟨rfl, used⟩ | used)
    · by_cases replaced : uses.runtime = true ∧ path = config.runtimeImport
      · exact .inr ⟨replaced.2, replaced.1⟩
      · exact .inl (.inl ⟨listed, replaced⟩)
    · by_cases listed : "fmt" ∈ u.imports.map (·.value)
      · by_cases replaced : uses.runtime = true ∧ "fmt" = config.runtimeImport
        · exact .inr ⟨replaced.2, replaced.1⟩
        · exact .inl (.inl ⟨listed, replaced⟩)
      · exact .inl (.inr ⟨rfl, used, listed⟩)
    · exact .inr used

end

/-- The generator calls one of the functions that format. -/
def Marked.formats (code : Marked) : Bool := calls "fmt" "Sprintf" code || calls "fmt" "Sprint" code

/-- In the declarations of a unit the generator refers to formatting exactly where it formats. -/
theorem refers_fmt_eq (u : SourceUnit) :
    Marked.refers (Marked.declarations standIn u) "fmt" = Marked.formats (Marked.declarations standIn u) := by
  have formatted := (declarations_emitted standIn u).shown.formatted
  rw [Bool.eq_iff_iff, Marked.formats, Bool.or_eq_true]
  constructor
  · exact formatted
  · rintro (called | called)
    · exact Marked.refers_iff.mpr (Marked.referred_of_calls [] _ called)
    · exact Marked.refers_iff.mpr (Marked.referred_of_calls [] _ called)

/-- The imports of a file: the unit's own, and those packages of the generator that the code needs. -/
structure ImportsUsed (config : Config) (own : List String) (code : Marked) (block : Doc) (lines : List ImportLine) :
    Prop where
  block : ImportBlock block lines
  once : (lines.map (·.path)).Nodup
  paths : ∀ path, path ∈ lines.map (·.path) ↔ path ∈ own ∨ (path = "fmt" ∧ Marked.formats code = true) ∨
    (path = config.runtimeImport ∧ Marked.refers code standIn = true)
  written : ∀ i ∈ lines, i = importOf config (Marked.uses code) i.path

/-- The declarations of a file show their marked code, in which the alias of the runtime is left open. The import block
lists each path once: the unit's own imports, `fmt` when the generator calls `Sprintf` or `Sprint` in the code, and the
runtime, under its alias, when the generator refers to it there. What is left out of the code, such as the nodes of a
plain function, has no part in this. -/
theorem imports_exactly_used (config : Config) (distinct : config.runtimeImport ≠ "fmt") (package : String)
    (u : SourceUnit) :
    let code := Marked.declarations standIn u
    let body := (declarations config.runtimeAlias u).doc
    Marked.render (Marked.fill config.runtimeAlias code) = body.render "\t" ∧
    ∃ block lines,
      document config package u =
        (if config.header.isEmpty then [] else Doc.line config.header ++ Doc.blank) ++
        Doc.line ("package " ++ package) ++ Doc.blank ++ block ++ body ∧
      ImportsUsed config (u.imports.map (·.value)) code block lines := by
  intro code body
  have emitted := declarations_emitted config.runtimeAlias u
  let is := imports config u (declarations config.runtimeAlias u).uses
  refine ⟨emitted.shown.shown, importDoc is, listed is, rfl, importDoc_lists is, ?_, ?_, ?_⟩
  · refine (listed_nodup is).map_on ?_
    intro i first j second same
    rw [importOf_of_mem distinct (mem_listed.mp first), importOf_of_mem distinct (mem_listed.mp second), same]
  · intro path
    have members : path ∈ (listed is).map (·.path) ↔ path ∈ is.map (·.path) := by
      simp only [List.mem_map, mem_listed]
    rw [members, path_mem_imports, emitted.noted, ← refers_fmt_eq]
    rfl
  · intro i member
    have written := importOf_of_mem distinct (mem_listed.mp member)
    rw [emitted.noted] at written
    exact written

/-- A plain function with a template that is kept, and with a node that is dropped. -/
def reportSource : String :=
  "package p import \"os\" func report(n int) \x7b os.Exit(size(\x60a$\x7bn\x7d\x60)) Div(\x60b$\x7bn\x7d\x60) \x7d"

/-- The template that is kept needs `fmt`; the dropped node would need the runtime. -/
theorem imports_exactly_used_report : Config.default.runtimeImport ≠ "fmt" ∧
    ∃ u, parse "report" reportSource = .ok u ∧ u.imports.map (·.value) = ["os"] ∧
      Marked.formats (Marked.declarations standIn u) = true ∧
      Marked.refers (Marked.declarations standIn u) standIn = false ∧
      ∃ block lines, ImportsUsed Config.default ["os"] (Marked.declarations standIn u) block lines := by
  have distinct : Config.default.runtimeImport ≠ "fmt" := by decide
  have known : (parse "report" reportSource).toOption.map (fun u =>
      (u.imports.map (·.value), Marked.formats (Marked.declarations standIn u),
        Marked.refers (Marked.declarations standIn u) standIn)) = some (["os"], true, false) := by decide +kernel
  refine ⟨distinct, ?_⟩
  obtain ⟨u, read, known⟩ := Option.map_eq_some_iff.mp known
  obtain ⟨own, needs⟩ := Prod.mk.inj known
  obtain ⟨formats, refers⟩ := Prod.mk.inj needs
  obtain ⟨-, block, lines, -, used⟩ := imports_exactly_used Config.default distinct u.package.value u
  rw [own] at used
  exact ⟨u, toOption_some_iff.mp read, own, formats, refers, block, lines, used⟩

end ViewLang.Go
