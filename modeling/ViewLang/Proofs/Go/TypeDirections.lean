import ViewLang.Proofs.Go.Rereading
import ViewLang.Proofs.Go.TypeGrammar

namespace ViewLang

mutual

def TypeExpr.parts : TypeExpr → List TypeExpr
  | .named n => [.named n]
  | .generic n arg => .generic n arg :: arg.parts
  | .chan recvOnly elem => .chan recvOnly elem :: elem.parts
  | .slice elem => .slice elem :: elem.parts
  | .pointer elem => .pointer elem :: elem.parts
  | .func params results => .func params results :: (TypeExpr.partsEach params ++ TypeExpr.partsEach results)

def TypeExpr.partsEach : List TypeExpr → List TypeExpr
  | [] => []
  | t :: ts => t.parts ++ TypeExpr.partsEach ts

end

namespace Go

mutual

/-- The type of Go that a type describes: wrapped in the same way, with the same directions. -/
def described : TypeExpr → Ty
  | .named n => .named n []
  | .generic n arg => .named n [described arg]
  | .chan true elem => .chan .receive (described elem)
  | .chan false elem => .chan .both (described elem)
  | .slice elem => .slice (described elem)
  | .pointer elem => .pointer (described elem)
  | .func params results => .func (describedEach params) (describedEach results)

def describedEach : List TypeExpr → List Ty
  | [] => []
  | t :: ts => described t :: describedEach ts

end

structure Faithful (parts : List TypeExpr) (names : List String) : Prop where
  apart : ∀ elem, .chan false (.chan true elem) ∉ parts
  free : ∀ n ∈ names, Unreserved n

theorem faithful_append {ps qs : List TypeExpr} {ns ms : List String} :
    Faithful (ps ++ qs) (ns ++ ms) ↔ Faithful ps ns ∧ Faithful qs ms := by
  constructor
  · rintro ⟨apart, free⟩
    simp only [List.mem_append, not_or, forall_and] at apart
    obtain ⟨first, second⟩ := List.forall_mem_append.mp free
    exact ⟨⟨apart.1, first⟩, ⟨apart.2, second⟩⟩
  · rintro ⟨⟨apart, free⟩, ⟨apart', free'⟩⟩
    exact ⟨fun elem => List.mem_append.not.mpr (not_or.mpr ⟨apart elem, apart' elem⟩),
      List.forall_mem_append.mpr ⟨free, free'⟩⟩

theorem faithful_cons {t : TypeExpr} (other : ∀ elem, t ≠ .chan false (.chan true elem)) {ps : List TypeExpr}
    {ns : List String} : Faithful (t :: ps) ns ↔ Faithful ps ns := by
  constructor
  · rintro ⟨apart, free⟩
    exact ⟨fun elem member => apart elem (List.mem_cons_of_mem _ member), free⟩
  · rintro ⟨apart, free⟩
    refine ⟨fun elem member => ?_, free⟩
    rcases List.mem_cons.mp member with same | member
    · exact other elem same.symm
    · exact apart elem member

theorem faithful_name {n : String} {ps : List TypeExpr} {ns : List String} :
    Faithful ps (n :: ns) ↔ Unreserved n ∧ Faithful ps ns := by
  constructor
  · rintro ⟨apart, free⟩
    obtain ⟨here, later⟩ := List.forall_mem_cons.mp free
    exact ⟨here, apart, later⟩
  · rintro ⟨here, apart, later⟩
    exact ⟨apart, List.forall_mem_cons.mpr ⟨here, later⟩⟩

mutual

theorem read?_eq_described : (t : TypeExpr) → (read? false t = some (described t) ↔ Faithful t.parts t.names)
  | .named n => by
    have nothing : Faithful [] [] := ⟨nofun, nofun⟩
    rw [read?, described, TypeExpr.parts, TypeExpr.names, faithful_cons (by simp), faithful_name, and_iff_left nothing]
    by_cases free : Unreserved n
    · simp [free, carried]
    · simp [free]
  | .generic n arg => by
    rw [read?, described, TypeExpr.parts, TypeExpr.names, faithful_cons (by simp), faithful_name,
      ← read?_eq_described arg]
    by_cases free : Unreserved n
    · simp [free, carried]
    · simp [free]
  | .chan true elem => by
    rw [read?, described, TypeExpr.parts, TypeExpr.names, faithful_cons (by simp), ← read?_eq_described elem]
    simp
  | .chan false elem => by
    rw [Ty.read?_chan, described, TypeExpr.parts, TypeExpr.names]
    by_cases receive : ∃ e, elem = .chan true e
    · obtain ⟨e, rfl⟩ := receive
      have crossed :
          ¬ Faithful (.chan false (.chan true e) :: (TypeExpr.chan true e).parts) (TypeExpr.chan true e).names :=
        fun faithful => faithful.apart e List.mem_cons_self
      simp [crossed, read?]
    · have other (e : TypeExpr) : elem ≠ .chan true e := fun same => receive ⟨e, same⟩
      rw [Ty.read?_behindChan other, faithful_cons (by simpa using other), ← read?_eq_described elem]
      simp
  | .slice elem => by
    rw [read?, described, TypeExpr.parts, TypeExpr.names, faithful_cons (by simp), ← read?_eq_described elem]
    simp [carried]
  | .pointer elem => by
    rw [read?, described, TypeExpr.parts, TypeExpr.names, faithful_cons (by simp), ← read?_eq_described elem]
    simp [carried]
  | .func params results => by
    rw [read?, described, TypeExpr.parts, TypeExpr.names, faithful_cons (by simp), faithful_append,
      ← readEach?_eq_described params, ← readEach?_eq_described results]
    simp [carried, Option.bind_eq_some_iff]

theorem readEach?_eq_described : (ts : List TypeExpr) →
    (readEach? ts = some (describedEach ts) ↔ Faithful (TypeExpr.partsEach ts) (TypeExpr.namesEach ts))
  | [] => by
    rw [readEach?, describedEach, TypeExpr.partsEach, TypeExpr.namesEach]
    exact ⟨fun _ => ⟨nofun, nofun⟩, fun _ => rfl⟩
  | t :: ts => by
    rw [readEach?, describedEach, TypeExpr.partsEach, TypeExpr.namesEach, faithful_append, ← read?_eq_described t,
      ← readEach?_eq_described ts]
    simp [Option.bind_eq_some_iff]

end

mutual

/-- What holds of `Node` with and without the runtime in front of it holds of the names of a type as written in Go
exactly if it does of those in the source. -/
theorem forall_names_qualified {P : String → Prop} {runtime : String} (bare : P "Node")
    (joined : P (runtime ++ ".Node")) :
    (t : TypeExpr) → ((∀ n ∈ (t.qualified runtime).names, P n) ↔ ∀ n ∈ t.names, P n)
  | .named n => by
    rw [TypeExpr.qualified, TypeExpr.names, TypeExpr.names, List.forall_mem_singleton, List.forall_mem_singleton]
    split
    · rename_i node
      rw [node]
      exact iff_of_true joined bare
    · exact Iff.rfl
  | .generic n arg => by
    rw [TypeExpr.qualified, TypeExpr.names, TypeExpr.names, List.forall_mem_cons, List.forall_mem_cons,
      forall_names_qualified bare joined arg]
  | .chan _ elem => forall_names_qualified bare joined elem
  | .slice elem => forall_names_qualified bare joined elem
  | .pointer elem => forall_names_qualified bare joined elem
  | .func params results => by
    rw [TypeExpr.qualified, TypeExpr.names, TypeExpr.names, List.forall_mem_append, List.forall_mem_append,
      forall_namesEach_qualified bare joined params, forall_namesEach_qualified bare joined results]

theorem forall_namesEach_qualified {P : String → Prop} {runtime : String} (bare : P "Node")
    (joined : P (runtime ++ ".Node")) : (ts : List TypeExpr) →
    ((∀ n ∈ TypeExpr.namesEach (TypeExpr.qualifiedEach runtime ts), P n) ↔ ∀ n ∈ TypeExpr.namesEach ts, P n)
  | [] => Iff.rfl
  | t :: ts => by
    rw [TypeExpr.qualifiedEach, TypeExpr.namesEach, TypeExpr.namesEach, List.forall_mem_append, List.forall_mem_append,
      forall_names_qualified bare joined t, forall_namesEach_qualified bare joined ts]

end

mutual

theorem parts_qualified (runtime : String) :
    (t : TypeExpr) → (t.qualified runtime).parts = t.parts.map (TypeExpr.qualified runtime)
  | .named n => rfl
  | .generic n arg => by
    rw [TypeExpr.qualified, TypeExpr.parts, TypeExpr.parts, parts_qualified runtime arg]
    rfl
  | .chan _ elem => by
    rw [TypeExpr.qualified, TypeExpr.parts, TypeExpr.parts, parts_qualified runtime elem]
    rfl
  | .slice elem => by
    rw [TypeExpr.qualified, TypeExpr.parts, TypeExpr.parts, parts_qualified runtime elem]
    rfl
  | .pointer elem => by
    rw [TypeExpr.qualified, TypeExpr.parts, TypeExpr.parts, parts_qualified runtime elem]
    rfl
  | .func params results => by
    rw [TypeExpr.qualified, TypeExpr.parts, TypeExpr.parts, partsEach_qualified runtime params,
      partsEach_qualified runtime results, List.map_cons, List.map_append]
    rfl

theorem partsEach_qualified (runtime : String) : (ts : List TypeExpr) →
    TypeExpr.partsEach (TypeExpr.qualifiedEach runtime ts) = (TypeExpr.partsEach ts).map (TypeExpr.qualified runtime)
  | [] => rfl
  | t :: ts => by
    rw [TypeExpr.qualifiedEach, TypeExpr.partsEach, TypeExpr.partsEach, parts_qualified runtime t,
      partsEach_qualified runtime ts, List.map_append]

end

theorem crossed_of_qualified {runtime : String} {t elem : TypeExpr}
    (same : t.qualified runtime = .chan false (.chan true elem)) : ∃ e, t = .chan false (.chan true e) := by
  cases t with
  | chan recvOnly inner =>
    cases inner with
    | chan recvOnly' e =>
      cases same
      exact ⟨e, rfl⟩
    | _ => cases same
  | _ => cases same

theorem nameParts_joined {n m : String} (legal : Lexer.Legal (.ident n)) : nameParts (n ++ "." ++ m) = [n, m] := by
  have written : nameTokens (n ++ "." ++ m) = [.ident n, .symbol .dot, .ident m] := by
    rw [nameTokens, Layout.typeName_tokens, Grammar.typeName_joined (Layout.not_mem_of_legal legal)]
    rfl
  rcases nameTokens_cases (n ++ "." ++ m) with ⟨single, -⟩ | ⟨p, q, both, parts, -⟩
  · have short := congrArg List.length (single.symm.trans written)
    cases short
  · cases both.symm.trans written
    exact parts

theorem runtime_node (runtime : String) : runtime ++ ".Node" = runtime ++ "." ++ "Node" := by
  rw [String.append_assoc]
  rfl

theorem faithful_qualified {runtime : String} (legal : Lexer.Legal (.ident runtime)) (free : runtime ∉ Ty.reserved)
    (t : TypeExpr) :
    Faithful (t.qualified runtime).parts (t.qualified runtime).names ↔ Faithful t.parts t.names := by
  have bare : Unreserved "Node" := by decide
  have joined : Unreserved (runtime ++ ".Node") := by
    rw [runtime_node, Unreserved, nameParts_joined legal, List.forall_mem_cons, List.forall_mem_singleton]
    exact ⟨free, by decide⟩
  have names := forall_names_qualified bare joined t
  have crossed : (∀ elem, .chan false (.chan true elem) ∉ (t.qualified runtime).parts) ↔
      ∀ elem, .chan false (.chan true elem) ∉ t.parts := by
    rw [parts_qualified]
    constructor
    · intro apart elem member
      exact apart _ (List.mem_map_of_mem member)
    · intro apart elem member
      obtain ⟨part, inside, same⟩ := List.mem_map.mp member
      obtain ⟨e, rfl⟩ := crossed_of_qualified same
      exact apart e inside
  exact ⟨fun faithful => ⟨crossed.mp faithful.apart, names.mp faithful.free⟩,
    fun faithful => ⟨crossed.mpr faithful.apart, names.mpr faithful.free⟩⟩

theorem type_readable_of_read {us rest : Tokens} {t : Located TypeExpr} (legal : ∀ u ∈ us, Lexer.Legal u.value)
    (read : Grammar.type us = .ok (t, rest)) : Layout.AllReadable (Layout.type t.value) := by
  obtain ⟨used, rfl, shown⟩ := Grammar.shows_type us (Layout.unpointed_of_legal legal) t rest read
  have lays := Layout.render_lays t.value
  exact Layout.readable_of_shown (fun u taken => legal u (List.mem_append_left _ taken)) shown lays.kinds lays.quotable

theorem qualified_readable {runtime : String} (legal : Lexer.Legal (.ident runtime)) {t : TypeExpr}
    (readable : Layout.AllReadable (Layout.type t)) : Layout.AllReadable (Layout.type (t.qualified runtime)) := by
  have node : Lexer.Legal (.ident "Node") := Lexer.legal_of_checked rfl
  have symbol (s : Symbol) : Layout.Readable (.symbol s) := ⟨trivial, trivial⟩
  have keyword (k : Keyword) : Layout.Readable (.keyword k) := ⟨trivial, trivial⟩
  have bare := Layout.typeName_readable (.plain node)
  have joined : Layout.AllReadable (Layout.typeName (runtime ++ ".Node")) := by
    rw [runtime_node]
    exact Layout.typeName_readable (.member legal node)
  refine (Layout.forall_type symbol keyword (t.qualified runtime)).mpr ?_
  refine (forall_names_qualified bare joined t).mpr ?_
  exact (Layout.forall_type symbol keyword t).mp readable

/-- Go reads the type that a type of the source describes, with the runtime's `Node`, exactly if no arrow stands behind
a `chan` of another channel and no name is reserved. -/
theorem type_read_as_described_iff {source : String} {ts us rest : Tokens} {t : Located TypeExpr} {runtime : String}
    (lexed : tokenize source = .ok ts) (inside : us <:+ ts) (read : Grammar.type us = .ok (t, rest))
    (legal : Lexer.Legal (.ident runtime)) (free : runtime ∉ Ty.reserved) :
    Ty.ofText? (type runtime t.value).1 = some (described (t.value.qualified runtime)) ↔
      (∀ elem, .chan false (.chan true elem) ∉ t.value.parts) ∧ ∀ n ∈ t.value.names, Unreserved n := by
  have legals : ∀ u ∈ us, Lexer.Legal u.value := fun u member => Lexer.tokenize_legal lexed u (inside.subset member)
  have readable := qualified_readable legal (type_readable_of_read legals read)
  rw [type_text, Ty.ofText?_render readable, read?_eq_described, faithful_qualified legal free]
  exact ⟨fun faithful => ⟨faithful.apart, faithful.free⟩, fun both => ⟨both.1, both.2⟩⟩

/-- A receive-only channel of channels of nodes, which `<-chan chan *Node` is read as. -/
def nodeFeeds : TypeExpr := .chan true (.chan false (.pointer (.named "Node")))

theorem type_read_as_described_iff_feeds : ∃ ts, tokenize "<-chan chan *Node" = .ok ts ∧
    Grammar.type ts = .ok (⟨nodeFeeds, ⟨0, 17⟩⟩, []) ∧ Lexer.Legal (.ident "rt") ∧ "rt" ∉ Ty.reserved ∧
    (type "rt" nodeFeeds).1 = "<-chan chan *rt.Node" ∧
    Ty.ofText? (type "rt" nodeFeeds).1 = some (described (nodeFeeds.qualified "rt")) := by
  have lexed : tokenize "<-chan chan *Node" = .ok [⟨.symbol .arrow, ⟨0, 2⟩⟩, ⟨.keyword .chan, ⟨2, 6⟩⟩,
      ⟨.keyword .chan, ⟨7, 11⟩⟩, ⟨.symbol .star, ⟨12, 13⟩⟩, ⟨.ident "Node", ⟨13, 17⟩⟩] := by decide +kernel
  have read : Grammar.type [⟨.symbol .arrow, ⟨0, 2⟩⟩, ⟨.keyword .chan, ⟨2, 6⟩⟩,
      ⟨.keyword .chan, ⟨7, 11⟩⟩, ⟨.symbol .star, ⟨12, 13⟩⟩, ⟨.ident "Node", ⟨13, 17⟩⟩] =
        .ok (⟨nodeFeeds, ⟨0, 17⟩⟩, []) := rfl
  have legal : Lexer.Legal (.ident "rt") := Lexer.legal_of_checked rfl
  refine ⟨_, lexed, read, legal, by decide, by decide +kernel, ?_⟩
  refine (type_read_as_described_iff lexed (List.suffix_refl _) read legal (by decide)).mpr ⟨?_, ?_⟩
  · intro elem
    simp [nodeFeeds, TypeExpr.parts]
  · exact List.forall_mem_singleton.mpr (by decide)

/-- A channel of receive-only channels is written so that Go reads a send-only channel of channels. -/
theorem receive_read_as_send : ∃ ts t, tokenize "chan <-chan int" = .ok ts ∧ Grammar.type ts = .ok (t, []) ∧
    (type "rt" t.value).1 = "chan <-chan int" ∧
    described (t.value.qualified "rt") = .chan .both (.chan .receive (.named "int" [])) ∧
    Ty.ofText? "chan <-chan int" = some (.chan .send (.chan .both (.named "int" []))) ∧
    Ty.ofText? (type "rt" t.value).1 ≠ some (described (t.value.qualified "rt")) := by
  have lexed : tokenize "chan <-chan int" = .ok [⟨.keyword .chan, ⟨0, 4⟩⟩, ⟨.symbol .arrow, ⟨5, 7⟩⟩,
      ⟨.keyword .chan, ⟨7, 11⟩⟩, ⟨.ident "int", ⟨12, 15⟩⟩] := by decide +kernel
  have read : Grammar.type [⟨.keyword .chan, ⟨0, 4⟩⟩, ⟨.symbol .arrow, ⟨5, 7⟩⟩,
      ⟨.keyword .chan, ⟨7, 11⟩⟩, ⟨.ident "int", ⟨12, 15⟩⟩] =
        .ok (⟨.chan false (.chan true (.named "int")), ⟨0, 15⟩⟩, []) := rfl
  have written : (type "rt" (.chan false (.chan true (.named "int")))).1 = "chan <-chan int" := by decide +kernel
  have sent : Ty.ofText? "chan <-chan int" = some (.chan .send (.chan .both (.named "int" []))) := by
    rw [Ty.ofText?, lexed]
    rfl
  refine ⟨_, _, lexed, read, written, rfl, sent, ?_⟩
  rw [written, sent]
  rintro ⟨⟩

end Go
end ViewLang
