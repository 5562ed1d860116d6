import ViewLang.Analysis
import ViewLang.Proofs.Go.Mirrors

namespace ViewLang.Go

def CaseTwins (a b : String) : Prop :=
  ∃ x y rest, x ≠ y ∧ x.toUpper = y.toUpper ∧ a.toList = x :: rest ∧ b.toList = y :: rest

theorem toList_exported (name : String) : (exported name).toList = name.toList.modifyHead Char.toUpper := by
  rw [exported]
  cases name.toList with
  | nil => rfl
  | cons c cs => exact String.toList_ofList

theorem exported_eq_iff {a b : String} : exported a = exported b ↔ a = b ∨ CaseTwins a b := by
  have same : a = b ↔ a.toList = b.toList := String.toList_inj.symm
  rw [same, ← String.toList_inj, toList_exported, toList_exported, CaseTwins]
  cases a.toList with
  | nil =>
    cases b.toList with
    | nil => simp
    | cons y ys => simp
  | cons x xs =>
    cases b.toList with
    | nil => simp
    | cons y ys =>
      simp only [List.modifyHead_cons, List.cons.injEq]
      constructor
      · rintro ⟨alike, rfl⟩
        by_cases same : x = y
        · exact .inl ⟨same, rfl⟩
        · exact .inr ⟨x, y, xs, same, alike, ⟨rfl, rfl⟩, rfl, rfl⟩
      · rintro (⟨rfl, rfl⟩ | ⟨_, _, rest, -, alike, ⟨rfl, rfl⟩, rfl, rfl⟩)
        · exact ⟨rfl, rfl⟩
        · exact ⟨alike, rfl⟩

def hoistedNames (c : Component) : List String := c.body.vars.flatMap (·.names.map (·.value))

def keptNames (c : Component) : List String := if c.autoProps then hoistedNames c else declaredNames c

section

variable {c : Component}

theorem hoistedDecls_names (c : Component) : (hoistedDecls c).map (·.name) = hoistedNames c := by
  rw [hoistedDecls, List.map_flatMap, hoistedNames]
  refine List.flatMap_congr fun d _ => ?_
  have names : d.names.zipIdx.map Prod.fst = d.names := List.zipIdx_map_fst 0 d.names
  conv_rhs => rw [← names, List.map_map]
  rw [List.map_map]
  rfl

def propsNames (c : Component) : List String := if c.autoProps && !c.params.isEmpty then ["props"] else []

def quitNames (c : Component) : List String := if (channelProps c).isEmpty then [] else ["quit"]

theorem mem_propsNames {name : String} :
    name ∈ propsNames c ↔ name = "props" ∧ c.autoProps = true ∧ c.params ≠ [] := by
  rw [propsNames]
  split_ifs with gathered
  · simp_all
  · simp_all

theorem mem_quitNames {name : String} : name ∈ quitNames c ↔ name = "quit" ∧ ∃ ch, ch ∈ channelProps c := by
  rw [quitNames]
  split_ifs with none
  · simp_all
  · rw [Bool.not_eq_true, List.isEmpty_eq_false_iff_exists_mem] at none
    simp [none]

theorem propsNames_nodup (c : Component) : (propsNames c).Nodup := by
  rw [propsNames]
  split_ifs <;> decide

theorem quitNames_nodup (c : Component) : (quitNames c).Nodup := by
  rw [quitNames]
  split_ifs <;> decide

theorem hoistedRows_names (runtime : String) (c : Component) :
    ((hoistedDecls c).map (·.row runtime c)).map (·.1) = hoistedNames c := by
  rw [← hoistedDecls_names, List.map_map]
  refine List.map_congr_left fun decl member => ?_
  obtain ⟨d, -, name, i, -, rfl⟩ := mem_hoistedDecls.mp member
  rfl

theorem paramRows_names (env : Env) (name : String → String) (ps : List Param) :
    (answer (Lower.paramRows env name ps)).map (·.1) = (ps.map (·.name.value)).map name := by
  have rows : answer (Lower.paramRows env name ps) = _ := (paramRows_runs name ps).answer
  rw [rows, List.map_map, List.map_map]
  rfl

theorem structRows_names (env : Env) (c : Component) :
    (answer (Lower.structRows env c)).map (·.1) =
      propsNames c ++ keptNames c ++ (channelProps c).map (·.field) ++ quitNames c := by
  have rows : answer (Lower.structRows env c) = _ := structRows_runs.answer
  have quit : (quitRow (channelProps c)).map (·.1) = quitNames c := by
    rw [quitRow, quitNames, apply_ite (List.map _)]
    rfl
  have mirrors : ((channelProps c).map (·.row env.runtime)).map (·.1) = (channelProps c).map (·.field) := by
    rw [List.map_map]
    rfl
  rw [rows, List.map_append, List.map_append, List.map_append, quit, mirrors, hoistedRows_names, propsNames, keptNames]
  cases gathered : c.autoProps with
  | true =>
    rw [propsRow]
    cases c.params.isEmpty with
    | true => rfl
    | false => rfl
  | false =>
    have params : answer (Lower.paramRows env (if c.autoProps then exported else id) c.params) = _ :=
      paramDecls_rows.answer
    rw [gathered] at params
    rw [if_neg Bool.false_ne_true, if_neg Bool.false_ne_true, ← params, paramRows_names, if_neg Bool.false_ne_true,
      List.map_id]
    rfl

theorem keptNames_nodup (distinct : (declaredNames c).Nodup) : (keptNames c).Nodup := by
  rw [keptNames]
  split_ifs with gathered
  · exact (List.sublist_append_right _ _).nodup distinct
  · exact distinct

theorem mirrors_nodup (distinct : (declaredNames c).Nodup) : ((channelProps c).map (·.field)).Nodup := by
  have names := (channelProps_names c).nodup distinct
  have fields : (channelProps c).map (·.field) = ((channelProps c).map (·.name)).map (· ++ "Value") := by
    rw [List.map_map]
    rfl
  rw [fields]
  apply List.Nodup.map _ names
  intro a b same
  rw [← String.toList_inj, String.toList_append, String.toList_append, List.append_cancel_right_eq,
    String.toList_inj] at same
  exact same

/-- No name with the ending of a mirror has another ending. -/
theorem field_ne {ch : ChannelProp} {name : String} (other : ¬ "Value".toList <:+ name.toList) : ch.field ≠ name := by
  rintro rfl
  apply other
  rw [ChannelProp.field, String.toList_append]
  exact List.suffix_append _ _

end

/-- No declared name is one of those made up for the same struct, and no two parameters are exported alike. -/
structure Apart (c : Component) : Prop where
  mirror : ∀ x elem, Mirrored c x elem → x ++ "Value" ∉ keptNames c
  quit : ∀ x elem, Mirrored c x elem → "quit" ∉ keptNames c
  props : c.autoProps = true → c.params ≠ [] → "props" ∉ hoistedNames c
  exports : c.autoProps = true →
    ∀ a ∈ c.params.map (·.name.value), ∀ b ∈ c.params.map (·.name.value), ¬ CaseTwins a b

section

variable {c : Component}

theorem forall_mirrored {P : String → Prop} :
    (∀ x elem, Mirrored c x elem → P x) ↔ ∀ ch ∈ channelProps c, P ch.name := by
  constructor
  · intro each ch member
    exact each ch.name ch.elem (mirrored_iff.mpr ⟨ch, member, rfl, rfl⟩)
  · intro each x elem mirrored
    obtain ⟨ch, member, rfl, -⟩ := mirrored_iff.mp mirrored
    exact each ch member

theorem structFields_nodup_iff (distinct : (declaredNames c).Nodup) :
    (propsNames c ++ keptNames c ++ (channelProps c).map (·.field) ++ quitNames c).Nodup ↔
      (∀ x elem, Mirrored c x elem → x ++ "Value" ∉ keptNames c) ∧
      (∀ x elem, Mirrored c x elem → "quit" ∉ keptNames c) ∧
      (c.autoProps = true → c.params ≠ [] → "props" ∉ hoistedNames c) := by
  have kept := keptNames_nodup distinct
  have mirrors := mirrors_nodup distinct
  rw [forall_mirrored (P := fun x => x ++ "Value" ∉ keptNames c), forall_mirrored (P := fun _ => "quit" ∉ keptNames c),
    List.nodup_append, List.nodup_append, List.nodup_append]
  constructor
  · rintro ⟨⟨⟨-, -, props⟩, -, mirror⟩, -, quit⟩
    refine ⟨fun ch member clash => ?_, fun ch member clash => ?_, fun gathered given clash => ?_⟩
    · exact mirror _ (List.mem_append_right _ clash) _ (List.mem_map_of_mem member) rfl
    · have stopped : "quit" ∈ quitNames c := mem_quitNames.mpr ⟨rfl, ch, member⟩
      exact quit _ (List.mem_append_left _ (List.mem_append_right _ clash)) _ stopped rfl
    · have gathers : "props" ∈ propsNames c := mem_propsNames.mpr ⟨rfl, gathered, given⟩
      rw [keptNames, if_pos gathered] at props
      exact props _ gathers _ clash rfl
  · rintro ⟨mirror, quit, props⟩
    refine ⟨⟨⟨propsNames_nodup c, kept, ?_⟩, mirrors, ?_⟩, quitNames_nodup c, ?_⟩
    · rintro a gathers b declared rfl
      obtain ⟨rfl, gathered, given⟩ := mem_propsNames.mp gathers
      rw [keptNames, if_pos gathered] at declared
      exact props gathered given declared
    · intro a own b mirrored same
      obtain ⟨ch, member, rfl⟩ := List.mem_map.mp mirrored
      rcases List.mem_append.mp own with gathers | declared
      · obtain ⟨rfl, -⟩ := mem_propsNames.mp gathers
        exact field_ne (by decide) same.symm
      · rw [same] at declared
        exact mirror ch member declared
    · intro a other b stopped same
      obtain ⟨rfl, ch, member⟩ := mem_quitNames.mp stopped
      rw [same] at other
      rcases List.mem_append.mp other with own | mirrored
      · rcases List.mem_append.mp own with gathers | declared
        · obtain ⟨wrong, -⟩ := mem_propsNames.mp gathers
          exact absurd wrong (by decide)
        · exact quit ch member declared
      · obtain ⟨ch, -, named⟩ := List.mem_map.mp mirrored
        exact field_ne (by decide) named

/-- A props struct has distinct fields exactly if no two of its parameters are exported alike. -/
theorem propsFields_nodup_iff (distinct : (declaredNames c).Nodup) :
    ((c.params.map (·.name.value)).map exported).Nodup ↔
      ∀ a ∈ c.params.map (·.name.value), ∀ b ∈ c.params.map (·.name.value), ¬ CaseTwins a b := by
  rw [List.nodup_map_iff_inj_on ((List.sublist_append_left _ _).nodup distinct)]
  refine forall₂_congr fun a _ => forall₂_congr fun b _ => ?_
  rw [exported_eq_iff]
  constructor
  · rintro alike ⟨x, y, rest, different, upper, left, right⟩
    have same := alike (.inr ⟨x, y, rest, different, upper, left, right⟩)
    rw [same, right] at left
    exact different (List.cons.inj left).1.symm
  · rintro apart (same | twins)
    · exact same
    · exact absurd twins apart

end

/-- If parameters and hoisted variables have distinct names: the fields of a component's struct, and those of its props
struct if it has one, have distinct names exactly if no declared name is made up a second time and no two parameters are
exported alike. -/
theorem field_names_distinct_iff (runtime : String) (u : SourceUnit) (c : Component)
    (distinct : (declaredNames c).Nodup) :
    ((answer (Lower.structRows (plainEnv runtime u) c)).map (·.1)).Nodup ∧
        (c.autoProps = true →
          ((answer (Lower.paramRows (plainEnv runtime u) exported c.params)).map (·.1)).Nodup) ↔
      Apart c := by
  rw [structRows_names, paramRows_names, structFields_nodup_iff distinct, propsFields_nodup_iff distinct]
  constructor
  · rintro ⟨⟨mirror, quit, props⟩, exports⟩
    exact ⟨mirror, quit, props, exports⟩
  · intro apart
    exact ⟨⟨apart.mirror, apart.quit, apart.props⟩, apart.exports⟩

theorem field_names_distinct_iff_clock :
    let plain := plainEnv "rt" ⟨⟨"main", .none⟩, [], [], [clock], [], [], []⟩
    (declaredNames clock).Nodup ∧ ((answer (Lower.structRows plain clock)).map (·.1)).Nodup ∧ Apart clock := by
  intro plain
  have distinct : (declaredNames clock).Nodup := by decide
  have fields : ((answer (Lower.structRows plain clock)).map (·.1)).Nodup := by decide +kernel
  exact ⟨distinct, fields, (field_names_distinct_iff "rt" _ clock distinct).mp ⟨fields, nofun⟩⟩

/-- A parameter named like the mirror of another one: `count chan int, countValue int`. -/
def countFeed : Component where
  name := ⟨"Feed", .none⟩
  params := [⟨⟨"count", .none⟩, ⟨.chan false (.named "int"), .none⟩, false⟩,
    ⟨⟨"countValue", .none⟩, ⟨.named "int", .none⟩, false⟩]
  results := [⟨.named "Node", .none⟩]
  body := ⟨[], [], [.template ⟨[.text "x"], .none⟩]⟩
  autoProps := false
  span := .none

/-- Parameters that are exported alike: `title string, Title string`. -/
def titleCard : Component where
  name := ⟨"Card", .none⟩
  params := [⟨⟨"title", .none⟩, ⟨.named "string", .none⟩, false⟩, ⟨⟨"Title", .none⟩, ⟨.named "string", .none⟩, false⟩]
  results := [⟨.named "Node", .none⟩]
  body := ⟨[], [], [.template ⟨[.text "x"], .none⟩]⟩
  autoProps := true
  span := .none

/-- Nothing is found wrong with components whose structs have two fields of one name. -/
theorem made_up_names_clash :
    let unit : SourceUnit := ⟨⟨"main", .none⟩, [], [], [countFeed, titleCard], [], [], []⟩
    analyze unit = [] ∧
    (countFeed.isRenderable = true ∧ (declaredNames countFeed).Nodup ∧ "_" ∉ declaredNames countFeed ∧
      (answer (Lower.structRows (plainEnv "rt" unit) countFeed)).map (·.1) =
        ["count", "countValue", "countValue", "quit"] ∧
      ¬ ((answer (Lower.structRows (plainEnv "rt" unit) countFeed)).map (·.1)).Nodup) ∧
    (titleCard.isRenderable = true ∧ (declaredNames titleCard).Nodup ∧ "_" ∉ declaredNames titleCard ∧
      (answer (Lower.paramRows (plainEnv "rt" unit) exported titleCard.params)).map (·.1) = ["Title", "Title"] ∧
      ¬ ((answer (Lower.paramRows (plainEnv "rt" unit) exported titleCard.params)).map (·.1)).Nodup) := by
  decide +kernel

end ViewLang.Go
