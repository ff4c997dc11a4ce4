import GraphWeave.Resolver.Context
import Mathlib

/-!
When the look-ahead ends. A resolver may ask which fields are selected below it
(`ResolverContext.selectedFieldNames`).
-/

namespace GraphWeave

/-- The dotted path of a field under a prefix, as the look-ahead writes it. -/
def lookPath (pre name : String) : String := if pre.isEmpty then name else pre ++ "." ++ name

/-- The look-ahead's walk as it runs with no bound. `Walk doc pre visited selections trace
visited'` says that walking `selections` under the dotted prefix `pre`, with the fragment keys
`visited` already entered, meets the paths `trace` in order, with repeats, and ends having
entered `visited'`. A walk that never ends has no derivation. -/
inductive Walk (doc : Document) :
    String → List String → List Selection → List String → List String → Prop
  | nil {pre : String} {V : List String} : Walk doc pre V [] [] V
  | skip {pre : String} {V V' t : List String} {f : Field} {rest : List Selection} :
      f.name.startsWith "__" → Walk doc pre V rest t V' → Walk doc pre V (.field f :: rest) t V'
  | field {pre : String} {V V₁ V₂ t₁ t₂ : List String} {f : Field} {rest : List Selection} :
      ¬f.name.startsWith "__" → Walk doc (lookPath pre f.name) V f.selections t₁ V₁ →
      Walk doc pre V₁ rest t₂ V₂ → Walk doc pre V (.field f :: rest) (lookPath pre f.name :: t₁ ++ t₂) V₂
  | inline {pre condition : String} {directives : List Directive} {inner rest : List Selection}
      {V V₁ V₂ t₁ t₂ : List String} :
      Walk doc pre V inner t₁ V₁ → Walk doc pre V₁ rest t₂ V₂ →
      Walk doc pre V (.inline condition directives inner :: rest) (t₁ ++ t₂) V₂
  | seen {pre name : String} {directives : List Directive} {rest : List Selection}
      {V V' t : List String} :
      pre ++ "/" ++ name ∈ V → Walk doc pre V rest t V' →
      Walk doc pre V (.spread name directives :: rest) t V'
  | missing {pre name : String} {directives : List Directive} {rest : List Selection}
      {V V' t : List String} :
      pre ++ "/" ++ name ∉ V → doc.fragment? name = none →
      Walk doc pre (V ++ [pre ++ "/" ++ name]) rest t V' →
      Walk doc pre V (.spread name directives :: rest) t V'
  | enter {pre name : String} {directives : List Directive} {rest : List Selection}
      {frag : Fragment} {V V₁ V₂ t₁ t₂ : List String} :
      pre ++ "/" ++ name ∉ V → doc.fragment? name = some frag →
      Walk doc pre (V ++ [pre ++ "/" ++ name]) frag.selections t₁ V₁ →
      Walk doc pre V₁ rest t₂ V₂ → Walk doc pre V (.spread name directives :: rest) (t₁ ++ t₂) V₂

namespace Walk

variable {doc : Document}

/-- A walk meets one sequence of paths and enters one set of fragments. -/
theorem deterministic {pre : String} {V : List String} {S : List Selection}
    {t t' V' V'' : List String} (first : Walk doc pre V S t V') (second : Walk doc pre V S t' V'') :
    t = t' ∧ V' = V'' := by
  induction first generalizing t' V'' with
  | nil => cases second; exact ⟨rfl, rfl⟩
  | skip named _ ih =>
    cases second with
    | skip _ rest => exact ih rest
    | field unnamed _ _ => exact absurd named unnamed
  | field unnamed _ _ ih₁ ih₂ =>
    cases second with
    | skip named _ => exact absurd named unnamed
    | field _ below rest =>
      obtain ⟨rfl, rfl⟩ := ih₁ below
      obtain ⟨rfl, rfl⟩ := ih₂ rest
      exact ⟨rfl, rfl⟩
  | inline _ _ ih₁ ih₂ =>
    cases second with
    | inline inner rest =>
      obtain ⟨rfl, rfl⟩ := ih₁ inner
      obtain ⟨rfl, rfl⟩ := ih₂ rest
      exact ⟨rfl, rfl⟩
  | seen visited _ ih =>
    cases second with
    | seen _ rest => exact ih rest
    | missing fresh _ _ => exact absurd visited fresh
    | enter fresh _ _ _ => exact absurd visited fresh
  | missing fresh absent _ ih =>
    cases second with
    | seen visited _ => exact absurd visited fresh
    | missing _ _ rest => exact ih rest
    | enter _ found _ _ => simp [absent] at found
  | enter fresh found _ _ ih₁ ih₂ =>
    cases second with
    | seen visited _ => exact absurd visited fresh
    | missing _ absent _ => simp [absent] at found
    | enter _ found' inner rest =>
      rw [found] at found'
      cases found'
      obtain ⟨rfl, rfl⟩ := ih₁ inner
      obtain ⟨rfl, rfl⟩ := ih₂ rest
      exact ⟨rfl, rfl⟩

theorem visited_prefix {pre : String} {V V' t : List String} {S : List Selection}
    (walk : Walk doc pre V S t V') : V <+: V' := by
  induction walk with
  | nil => exact List.prefix_refl _
  | skip _ _ ih => exact ih
  | field _ _ _ ih₁ ih₂ => exact ih₁.trans ih₂
  | inline _ _ ih₁ ih₂ => exact ih₁.trans ih₂
  | seen _ _ ih => exact ih
  | missing _ _ _ ih => exact (List.prefix_append _ _).trans ih
  | enter _ _ _ _ ih₁ ih₂ => exact (List.prefix_append _ _).trans (ih₁.trans ih₂)

end Walk

/-! ### First appearances -/

theorem insertNew_nodup {names : List String} (nodup : names.Nodup) (name : String) :
    (insertNew names name).Nodup := by
  unfold insertNew
  split
  · exact nodup
  · rename_i absent
    exact nodup.append (List.nodup_singleton name) (by simpa using absent)

theorem foldl_insertNew_nodup {names : List String} (nodup : names.Nodup) (t : List String) :
    (t.foldl insertNew names).Nodup := by
  induction t generalizing names with
  | nil => exact nodup
  | cons name rest ih => exact ih (insertNew_nodup nodup name)

theorem eraseDups_of_nodup {names : List String} (nodup : names.Nodup) : names.eraseDups = names := by
  induction names with
  | nil => rfl
  | cons name rest ih =>
    obtain ⟨fresh, nodup⟩ := List.nodup_cons.mp nodup
    have kept : rest.filter (fun b => !b == name) = rest :=
      List.filter_eq_self.mpr fun b member => by
        have : b ≠ name := fun same => fresh (same ▸ member)
        simpa using this
    rw [List.eraseDups_cons, kept, ih nodup]

theorem foldl_insertNew_eq_eraseDups {names : List String} (nodup : names.Nodup) (t : List String) :
    t.foldl insertNew names = (names ++ t).eraseDups := by
  induction t generalizing names with
  | nil => simp [eraseDups_of_nodup nodup]
  | cons name rest ih =>
    rw [List.foldl_cons, ih (insertNew_nodup nodup name)]
    unfold insertNew
    split
    · rename_i present
      have member : name ∈ names := by simpa using present
      rw [List.eraseDups_append, List.eraseDups_append]
      congr 2
      simp [List.removeAll, member]
    · simp

/-! ### The look-ahead follows the walk -/

section Steps

variable {doc : Document} {entered : List String} {pre name : String}
  {acc : List String × List String} {directives : List Directive} {rest : List Selection}
  {frag : Fragment}

theorem lookAhead_field {f : Field} (visible : f.name.startsWith "__" = false) :
    lookAhead doc entered pre acc (.field f :: rest) =
      (lookAhead doc entered (lookPath pre f.name) (insertNew acc.1 (lookPath pre f.name), acc.2)
        f.selections).bind fun acc => lookAhead doc entered pre acc rest := by
  rw [lookAhead]
  simp [visible, lookPath]

/-- A spread of a defined fragment under a prefix where its key is new hangs when the fragment
is being entered, and enters it otherwise. -/
theorem lookAhead_spread_found (fresh : pre ++ "/" ++ name ∉ acc.2)
    (found : doc.fragment? name = some frag) :
    lookAhead doc entered pre acc (.spread name directives :: rest) =
      if name ∈ entered then none
      else (lookAhead doc (entered ++ [name]) pre (acc.1, acc.2 ++ [pre ++ "/" ++ name])
        frag.selections).bind fun acc => lookAhead doc entered pre acc rest := by
  rw [lookAhead]
  simp only [show (acc.2.contains (pre ++ "/" ++ name)) = false by simpa using fresh]
  split
  · simp_all
  · split
    · simp_all
    · rename_i same
      rw [found] at same
      cases same
      simp

theorem lookAhead_spread_hang (fresh : pre ++ "/" ++ name ∉ acc.2)
    (found : doc.fragment? name = some frag) (stacked : name ∈ entered) :
    lookAhead doc entered pre acc (.spread name directives :: rest) = none := by
  rw [lookAhead_spread_found fresh found, if_pos stacked]

theorem lookAhead_spread_enter (fresh : pre ++ "/" ++ name ∉ acc.2)
    (found : doc.fragment? name = some frag) (outside : name ∉ entered) :
    lookAhead doc entered pre acc (.spread name directives :: rest) =
      (lookAhead doc (entered ++ [name]) pre (acc.1, acc.2 ++ [pre ++ "/" ++ name])
        frag.selections).bind fun acc => lookAhead doc entered pre acc rest := by
  rw [lookAhead_spread_found fresh found, if_neg outside]

end Steps

theorem lookAhead_walk {doc : Document} {entered : List String} {pre : String}
    {acc r : List String × List String} {S : List Selection}
    (returned : lookAhead doc entered pre acc S = some r) :
    ∃ t, Walk doc pre acc.2 S t r.2 ∧ r.1 = t.foldl insertNew acc.1 := by
  fun_induction lookAhead doc entered pre acc S generalizing r
  case case1 =>
    cases returned
    exact ⟨[], .nil, rfl⟩
  case case2 named ih =>
    obtain ⟨t, walk, found⟩ := ih returned
    exact ⟨t, .skip named walk, found⟩
  case case3 unnamed _ _ ihBelow ihRest =>
    obtain ⟨mid, below, after⟩ := Option.bind_eq_some_iff.mp returned
    obtain ⟨t₁, walk₁, found₁⟩ := ihBelow below
    obtain ⟨t₂, walk₂, found₂⟩ := ihRest mid after
    refine ⟨_ :: t₁ ++ t₂, .field unnamed walk₁ walk₂, ?_⟩
    rw [found₂, found₁, List.cons_append, List.foldl_cons, List.foldl_append]
    rfl
  case case4 ihInner ihRest =>
    obtain ⟨mid, below, after⟩ := Option.bind_eq_some_iff.mp returned
    obtain ⟨t₁, walk₁, found₁⟩ := ihInner below
    obtain ⟨t₂, walk₂, found₂⟩ := ihRest mid after
    refine ⟨t₁ ++ t₂, .inline walk₁ walk₂, ?_⟩
    rw [found₂, found₁, List.foldl_append]
  case case5 visited ih =>
    obtain ⟨t, walk, found⟩ := ih returned
    exact ⟨t, .seen (by simpa using visited) walk, found⟩
  case case6 fresh _ absent ih =>
    obtain ⟨t, walk, found⟩ := ih returned
    exact ⟨t, .missing (by simpa using fresh) absent walk, found⟩
  case case7 => cases returned
  case case8 fresh _ _ found _ _ ihInner ihRest =>
    obtain ⟨mid, below, after⟩ := Option.bind_eq_some_iff.mp returned
    obtain ⟨t₁, walk₁, found₁⟩ := ihInner below
    obtain ⟨t₂, walk₂, found₂⟩ := ihRest mid after
    refine ⟨t₁ ++ t₂, .enter (by simpa using fresh) found walk₁ walk₂, ?_⟩
    rw [found₂, found₁, List.foldl_append]

/-! ### When the walk ends -/

namespace Document

/-- The selection lists a walk from `start` can come to, and whether it passed a field on the
way: into the next selections, beneath a field it does not skip, into an inline fragment, and
into the fragment a spread names. -/
inductive Reaches (doc : Document) (start : List Selection) : List Selection → Bool → Prop
  | refl : Reaches doc start start false
  | tail {s : Selection} {rest : List Selection} {beneath : Bool} :
      Reaches doc start (s :: rest) beneath → Reaches doc start rest beneath
  | field {f : Field} {rest : List Selection} {beneath : Bool} :
      Reaches doc start (.field f :: rest) beneath → ¬f.name.startsWith "__" →
      Reaches doc start f.selections true
  | inline {condition : String} {directives : List Directive} {inner rest : List Selection}
      {beneath : Bool} :
      Reaches doc start (.inline condition directives inner :: rest) beneath →
      Reaches doc start inner beneath
  | spread {name : String} {directives : List Directive} {rest : List Selection}
      {frag : Fragment} {beneath : Bool} :
      Reaches doc start (.spread name directives :: rest) beneath →
      doc.fragment? name = some frag → Reaches doc start frag.selections beneath

/-- A fragment spreads itself beneath a field: walking its selections comes, past a field, to a
spread of it. -/
def SpreadsBeneathItself (doc : Document) (name : String) : Prop :=
  ∃ frag directives rest, doc.fragment? name = some frag ∧
    doc.Reaches frag.selections (.spread name directives :: rest) true

end Document

/-- What a walk keeps of the fragments being entered: each one's selections reach the current
ones, and when no field lies between, its key under the current prefix is visited. -/
def Guarded (doc : Document) (entered : List String) (pre : String) (V : List String)
    (S : List Selection) : Prop :=
  ∀ name ∈ entered, ∃ frag, doc.fragment? name = some frag ∧
    ∃ beneath, doc.Reaches frag.selections S beneath ∧ (beneath = false → pre ++ "/" ++ name ∈ V)

namespace Guarded

variable {doc : Document} {entered : List String} {pre : String} {V V' : List String}

theorem tail {s : Selection} {rest : List Selection} (guarded : Guarded doc entered pre V (s :: rest))
    (longer : V <+: V') : Guarded doc entered pre V' rest := by
  intro name member
  obtain ⟨frag, found, beneath, reaches, keyed⟩ := guarded name member
  exact ⟨frag, found, beneath, reaches.tail, fun shallow => longer.subset (keyed shallow)⟩

theorem below {f : Field} {rest : List Selection} (guarded : Guarded doc entered pre V (.field f :: rest))
    (unnamed : ¬f.name.startsWith "__") (path : String) (V' : List String) :
    Guarded doc entered path V' f.selections := by
  intro name member
  obtain ⟨frag, found, beneath, reaches, -⟩ := guarded name member
  exact ⟨frag, found, true, reaches.field unnamed, by simp⟩

theorem inner {condition : String} {directives : List Directive} {inner rest : List Selection}
    (guarded : Guarded doc entered pre V (.inline condition directives inner :: rest))
    (longer : V <+: V') : Guarded doc entered pre V' inner := by
  intro name member
  obtain ⟨frag, found, beneath, reaches, keyed⟩ := guarded name member
  exact ⟨frag, found, beneath, reaches.inline, fun shallow => longer.subset (keyed shallow)⟩

theorem enter {name : String} {directives : List Directive} {rest : List Selection}
    {frag : Fragment} (guarded : Guarded doc entered pre V (.spread name directives :: rest))
    (found : doc.fragment? name = some frag) :
    Guarded doc (entered ++ [name]) pre (V ++ [pre ++ "/" ++ name]) frag.selections := by
  intro other member
  rcases List.mem_append.mp member with old | new
  · obtain ⟨frag', found', beneath, reaches, keyed⟩ := guarded other old
    exact ⟨frag', found', beneath, reaches.spread found,
      fun shallow => List.mem_append_left _ (keyed shallow)⟩
  · rw [List.mem_singleton.mp new]
    exact ⟨frag, found, false, .refl, fun _ => by simp⟩

theorem spreads_beneath {name : String} {directives : List Directive} {rest : List Selection}
    (guarded : Guarded doc entered pre V (.spread name directives :: rest))
    (member : name ∈ entered) (fresh : pre ++ "/" ++ name ∉ V) : doc.SpreadsBeneathItself name := by
  obtain ⟨frag, found, beneath, reaches, keyed⟩ := guarded name member
  cases beneath with
  | false => exact absurd (keyed rfl) fresh
  | true => exact ⟨frag, directives, rest, found, reaches⟩

end Guarded

/-- The look-ahead's walk ends whenever no fragment it enters is spread again beneath itself. -/
theorem lookAhead_isSome {doc : Document} (free : ∀ name, ¬doc.SpreadsBeneathItself name)
    {entered : List String} {pre : String} {acc : List String × List String}
    {S : List Selection} (guarded : Guarded doc entered pre acc.2 S) :
    (lookAhead doc entered pre acc S).isSome := by
  fun_induction lookAhead doc entered pre acc S
  case case1 => rfl
  case case2 ih => exact ih (guarded.tail (List.prefix_refl _))
  case case3 unnamed _ _ ihBelow ihRest =>
    obtain ⟨mid, below⟩ := Option.isSome_iff_exists.mp (ihBelow (guarded.below unnamed _ _))
    obtain ⟨t, walk, -⟩ := lookAhead_walk below
    rw [below, Option.bind_some]
    exact ihRest mid (guarded.tail walk.visited_prefix)
  case case4 ihInner ihRest =>
    obtain ⟨mid, below⟩ := Option.isSome_iff_exists.mp (ihInner (guarded.inner (List.prefix_refl _)))
    obtain ⟨t, walk, -⟩ := lookAhead_walk below
    rw [below, Option.bind_some]
    exact ihRest mid (guarded.tail walk.visited_prefix)
  case case5 ih => exact ih (guarded.tail (List.prefix_refl _))
  case case6 ih => exact ih (guarded.tail (List.prefix_append _ _))
  case case7 fresh _ found stacked =>
    exact absurd (guarded.spreads_beneath (by simpa using stacked) (by simpa using fresh)) (free _)
  case case8 fresh _ _ found _ _ ihInner ihRest =>
    obtain ⟨mid, below⟩ := Option.isSome_iff_exists.mp (ihInner (guarded.enter found))
    obtain ⟨t, walk, -⟩ := lookAhead_walk below
    rw [below, Option.bind_some]
    exact ihRest mid (guarded.tail ((List.prefix_append _ _).trans walk.visited_prefix))

/-! ### When the walk does not end -/

/-- A fragment whose first selection is a field (one the walk does not skip) whose first
selection spreads the fragment again has no walk from a spread of it: each entry is under a
longer prefix than every key visited before it, so its key is always new. -/
theorem Walk.not_of_first_field_spreads {doc : Document} {name : String} {frag : Fragment}
    {f : Field} {directives : List Directive} {rest rest' : List Selection}
    (found : doc.fragment? name = some frag) (first : frag.selections = .field f :: rest)
    (again : f.selections = .spread name directives :: rest') (named : f.name ≠ "")
    (visible : ¬f.name.startsWith "__") {pre : String} {V : List String}
    (shorter : ∀ k ∈ V, k.length < pre.length + name.length + 1) {d : List Directive}
    {more : List Selection} {t V' : List String} :
    ¬Walk doc pre V (.spread name d :: more) t V' := by
  have keyed : ∀ p : String, (p ++ "/" ++ name).length = p.length + name.length + 1 := by
    intro p
    have slash : "/".length = 1 := by decide
    simp only [String.length_append, slash]
    omega
  have longer : ∀ p : String, p.length < (lookPath p f.name).length := by
    intro p
    have wide : 0 < f.name.length :=
      Nat.pos_of_ne_zero fun empty => named (String.length_eq_zero_iff.mp empty)
    unfold lookPath
    split
    · rename_i empty
      rw [String.isEmpty_iff.mp empty, String.length_empty]
      exact wide
    · simp only [String.length_append]
      omega
  suffices never : ∀ p W S t W', Walk doc p W S t W' →
      (∀ d more, S = .spread name d :: more →
        (∀ k ∈ W, k.length < p.length + name.length + 1) → False) ∧
      (S = .field f :: rest → (∀ k ∈ W, k.length ≤ p.length + name.length + 1) → False) from
    fun walk => (never _ _ _ _ _ walk).1 d more rfl shorter
  intro p W S t W' walk
  induction walk with
  | nil => simp
  | skip hidden _ _ =>
    refine ⟨by simp, fun same _ => ?_⟩
    simp only [List.cons.injEq, Selection.field.injEq] at same
    rw [same.1] at hidden
    exact visible hidden
  | @field p W W₁ W₂ t₁ t₂ g more _ _ _ ih₁ _ =>
    refine ⟨by simp, fun same bounded => ?_⟩
    simp only [List.cons.injEq, Selection.field.injEq] at same
    obtain ⟨rfl, -⟩ := same
    refine ih₁.1 directives rest' again fun k member => ?_
    have := longer p
    have := bounded k member
    omega
  | inline => simp
  | @seen p name' _ _ W _ _ visited _ _ =>
    refine ⟨fun d more same bounded => ?_, by simp⟩
    simp only [List.cons.injEq, Selection.spread.injEq] at same
    obtain ⟨⟨rfl, -⟩, -⟩ := same
    have := bounded _ visited
    rw [keyed] at this
    omega
  | missing _ absent _ _ =>
    refine ⟨fun d more same _ => ?_, by simp⟩
    simp only [List.cons.injEq, Selection.spread.injEq] at same
    obtain ⟨⟨rfl, -⟩, -⟩ := same
    simp [absent] at found
  | @enter p name' _ _ frag' W _ _ _ _ _ found' _ _ ih₁ _ =>
    refine ⟨fun d more same bounded => ?_, by simp⟩
    simp only [List.cons.injEq, Selection.spread.injEq] at same
    obtain ⟨⟨rfl, -⟩, -⟩ := same
    rw [found] at found'
    cases found'
    refine ih₁.2 first fun k member => ?_
    rcases List.mem_append.mp member with old | new
    · exact (bounded k old).le
    · rw [List.mem_singleton.mp new, keyed]

/-! ### What a resolver sees -/

/-- A resolver's look-ahead ends when no fragment of the document spreads itself beneath a field.
The walk with no bound then ends too, and the resolver sees the paths the walk meets, each once,
in the order they first appear; asking for a path asks whether it is among them. -/
theorem look_ahead_ends_without_self_spreads (rc : ResolverContext)
    (free : ∀ name, ¬rc.document.SpreadsBeneathItself name) :
    (∃ trace visited, Walk rc.document "" [] (mergeSelections rc.fields) trace visited) ∧
      ∃ names, rc.selectedFieldNames = .ok names ∧ names.Nodup ∧
        (∀ trace visited, Walk rc.document "" [] (mergeSelections rc.fields) trace visited →
          names = trace.eraseDups) ∧
        ∀ path, rc.hasSelectedField path = .ok (names.contains path) := by
  have start : Guarded rc.document [] "" [] (mergeSelections rc.fields) := by
    intro name member
    cases member
  have ends : (lookAhead rc.document [] "" ([], []) (mergeSelections rc.fields)).isSome :=
    lookAhead_isSome free start
  obtain ⟨r, returned⟩ := Option.isSome_iff_exists.mp ends
  obtain ⟨trace, walk, found⟩ := lookAhead_walk returned
  have seen : rc.selectedFieldNames = .ok r.1 := by
    simp [ResolverContext.selectedFieldNames, selectedFieldNames, returned]
  refine ⟨⟨trace, r.2, walk⟩, r.1, seen, ?_, ?_, ?_⟩
  · rw [found]
    exact foldl_insertNew_nodup List.nodup_nil trace
  · intro trace' visited' walk'
    rw [← (walk.deterministic walk').1, found, foldl_insertNew_eq_eraseDups List.nodup_nil]
    rfl
  · intro path
    rw [ResolverContext.hasSelectedField, seen]
    rfl

/-- A fragment spread twice under one prefix is entered once there, and again under a field:
the look-ahead of `me { ...F ...F avatar { ...F } }` with `fragment F on User { name }` ends. -/
theorem fragment_entered_once_per_prefix :
    (∀ name, ¬(⟨[], [⟨"F", "User", [], [], [.field ⟨"name", "name", [], [], [], ⟨1, 40⟩⟩]⟩]⟩ :
      Document).SpreadsBeneathItself name) ∧
    ∃ names, (⟨.none, [], [.key "me"], "Query", "me", [⟨"me", "me", [], [],
        [.spread "F" [], .spread "F" [], .field ⟨"avatar", "avatar", [], [], [.spread "F" []],
          ⟨1, 20⟩⟩], ⟨1, 3⟩⟩],
        ⟨[], [⟨"F", "User", [], [], [.field ⟨"name", "name", [], [], [], ⟨1, 40⟩⟩]⟩]⟩, []⟩ :
        ResolverContext).selectedFieldNames = .ok names ∧ names.Nodup := by
  have leaf : ∀ L beneath, Document.Reaches ⟨[], [⟨"F", "User", [], [], [.field ⟨"name", "name",
      [], [], [], ⟨1, 40⟩⟩]⟩]⟩ [.field ⟨"name", "name", [], [], [], ⟨1, 40⟩⟩] L beneath →
      L = [.field ⟨"name", "name", [], [], [], ⟨1, 40⟩⟩] ∨ L = [] := by
    intro L beneath reaches
    induction reaches with
    | refl => exact .inl rfl
    | tail _ ih => rcases ih with same | empty <;> simp_all
    | field _ _ ih => rcases ih with same | empty <;> simp_all
    | inline _ ih => rcases ih with same | empty <;> simp_all
    | spread _ _ ih => rcases ih with same | empty <;> simp_all
  have free : ∀ name, ¬(⟨[], [⟨"F", "User", [], [], [.field ⟨"name", "name", [], [], [],
      ⟨1, 40⟩⟩]⟩]⟩ : Document).SpreadsBeneathItself name := by
    rintro name ⟨frag, directives, rest, found, reaches⟩
    simp only [Document.fragment?, List.find?_cons, List.find?_nil] at found
    split at found
    · cases found
      rcases leaf _ _ reaches with same | empty <;> simp_all
    · cases found
  obtain ⟨-, names, seen, nodup, -⟩ := look_ahead_ends_without_self_spreads
    ⟨.none, [], [.key "me"], "Query", "me", [⟨"me", "me", [], [],
      [.spread "F" [], .spread "F" [], .field ⟨"avatar", "avatar", [], [], [.spread "F" []],
        ⟨1, 20⟩⟩], ⟨1, 3⟩⟩],
      ⟨[], [⟨"F", "User", [], [], [.field ⟨"name", "name", [], [], [], ⟨1, 40⟩⟩]⟩]⟩, []⟩ free
  exact ⟨free, names, seen, nodup⟩

/-- A fragment spread beneath itself: for `me { ...F }` with
`fragment F on User { avatar { ...F } }` the walk with no bound never ends, entering `F` under
`avatar`, then `avatar.avatar`, and so on, and the look-ahead of `me` hangs. -/
theorem avatar_fragment_walks_forever :
    (¬∃ trace visited, Walk ⟨[], [⟨"F", "User", [], [],
        [.field ⟨"avatar", "avatar", [], [], [.spread "F" []], ⟨1, 42⟩⟩]⟩]⟩ "" []
        [.spread "F" []] trace visited) ∧
    (⟨.none, [], [.key "me"], "Query", "me", [⟨"me", "me", [], [], [.spread "F" []], ⟨1, 3⟩⟩],
        ⟨[], [⟨"F", "User", [], [], [.field ⟨"avatar", "avatar", [], [], [.spread "F" []],
          ⟨1, 42⟩⟩]⟩]⟩, []⟩ : ResolverContext).selectedFieldNames = .error .hang := by
  have found : (⟨[], [⟨"F", "User", [], [], [.field ⟨"avatar", "avatar", [], [],
      [.spread "F" []], ⟨1, 42⟩⟩]⟩]⟩ : Document).fragment? "F" = some ⟨"F", "User", [], [],
        [.field ⟨"avatar", "avatar", [], [], [.spread "F" []], ⟨1, 42⟩⟩]⟩ := by
    simp [Document.fragment?]
  refine ⟨?_, ?_⟩
  · rintro ⟨t, V, walk⟩
    exact Walk.not_of_first_field_spreads found rfl rfl (by simp) (by simp) (by simp) walk
  · simp only [ResolverContext.selectedFieldNames, selectedFieldNames, mergeSelections,
      List.foldr_cons, List.foldr_nil, List.append_nil]
    rw [lookAhead_spread_enter (by simp) found (by simp), List.nil_append,
      lookAhead_field (by simp),
      lookAhead_spread_hang (by decide) found (by simp)]
    rfl

end GraphWeave
