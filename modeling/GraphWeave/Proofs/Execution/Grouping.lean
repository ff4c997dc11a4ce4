import GraphWeave.Proofs.Execution.Collection
import GraphWeave.Proofs.Execution.Footprint
import GraphWeave.Proofs.Execution.LookAhead

/-!
Field groups in document order: collecting follows the CollectFields walk whenever its fuel exceeds
the fragment names not yet visited, and groups the fields by key.
-/

namespace GraphWeave

namespace FieldGroup

/-- Adds fields one after the other, each to the group of its response key. -/
def addAll (groups : List FieldGroup) (fields : List Field) : List FieldGroup :=
  fields.foldl (fun gs f => add gs f.responseKey f) groups

/-- The fields of the first group with a key, none when no group has it. -/
def fieldsOf (groups : List FieldGroup) (key : String) : List Field :=
  ((groups.find? (·.key == key)).map (·.fields)).getD []

theorem addAll_append (groups : List FieldGroup) (fields more : List Field) :
    addAll groups (fields ++ more) = addAll (addAll groups fields) more :=
  List.foldl_append

theorem keys_add_eq_insertNew (groups : List FieldGroup) (key : String) (f : Field) :
    (add groups key f).map (·.key) = insertNew (groups.map (·.key)) key := by
  rw [keys_add, insertNew]
  have same : groups.any (·.key == key) = (groups.map (·.key)).contains key := by
    rw [Bool.eq_iff_iff]
    simp [List.any_eq_true]
  rw [same]

theorem keys_addAll {groups : List FieldGroup} (distinct : (groups.map (·.key)).Nodup)
    (fields : List Field) :
    (addAll groups fields).map (·.key) =
      (groups.map (·.key) ++ fields.map (·.responseKey)).eraseDups := by
  have folded : ∀ gs : List FieldGroup, (addAll gs fields).map (·.key) =
      (fields.map (·.responseKey)).foldl insertNew (gs.map (·.key)) := by
    induction fields with
    | nil => intro gs; rfl
    | cons f rest ih =>
      intro gs
      rw [addAll, List.foldl_cons, ← addAll, ih, List.map_cons, List.foldl_cons,
        keys_add_eq_insertNew]
  rw [folded, foldl_insertNew_eq_eraseDups distinct]

/-- Adding a field appends it to the fields of its key and leaves the other keys alone. -/
theorem fieldsOf_add (groups : List FieldGroup) (key : String) (f : Field) (k : String) :
    fieldsOf (add groups key f) k = fieldsOf groups k ++ if key = k then [f] else [] := by
  unfold add fieldsOf
  split
  case isTrue present =>
    rw [List.find?_map]
    have keeps : ((· == k) ∘ (·.key) ∘ fun g : FieldGroup =>
        if g.key == key then { g with fields := g.fields ++ [f] } else g) = (·.key == k) := by
      funext g
      simp only [Function.comp]
      split <;> rfl
    rw [show ((fun g : FieldGroup => g.key == k) ∘ fun g : FieldGroup =>
        if g.key == key then { g with fields := g.fields ++ [f] } else g) = (·.key == k) from keeps]
    cases found : groups.find? (·.key == k) with
    | none =>
      have absent : key ≠ k := by
        rintro rfl
        obtain ⟨g, member, keyed⟩ := List.any_eq_true.mp present
        exact List.find?_eq_none.mp found g member keyed
      simp [absent]
    | some g =>
      have keyed : g.key = k := by simpa using List.find?_some found
      by_cases same : key = k
      · simp [same, keyed]
      · have other : g.key ≠ key := by simpa [keyed] using Ne.symm same
        simp [same, other]
  case isFalse absent =>
    rw [List.find?_append]
    cases found : groups.find? (·.key == k) with
    | none =>
      by_cases same : key = k
      · simp [same]
      · simp [same]
    | some g =>
      have keyed : g.key = k := by simpa using List.find?_some found
      have other : key ≠ k := by
        rintro rfl
        exact absent (List.any_eq_true.mpr ⟨g, List.mem_of_find?_eq_some found, by simp [keyed]⟩)
      simp [other]

theorem fieldsOf_addAll (groups : List FieldGroup) (fields : List Field) (k : String) :
    fieldsOf (addAll groups fields) k = fieldsOf groups k ++ fields.filter (·.responseKey == k) := by
  induction fields generalizing groups with
  | nil => simp [addAll]
  | cons f rest ih =>
    rw [addAll, List.foldl_cons, ← addAll, ih, fieldsOf_add, List.filter_cons]
    by_cases same : f.responseKey = k <;> simp [same]

theorem fields_eq_fieldsOf {groups : List FieldGroup} (distinct : (groups.map (·.key)).Nodup)
    {g : FieldGroup} (member : g ∈ groups) : g.fields = fieldsOf groups g.key := by
  induction groups with
  | nil => cases member
  | cons first rest ih =>
    obtain ⟨fresh, distinct⟩ := List.nodup_cons.mp distinct
    rcases List.mem_cons.mp member with rfl | later
    · simp [fieldsOf]
    · have apart : first.key ≠ g.key := by
        intro same
        exact fresh (List.mem_map.mpr ⟨g, later, same.symm⟩)
      have other : (first.key == g.key) = false := by simpa using apart
      simp only [fieldsOf, List.find?_cons, other] at ih ⊢
      exact ih distinct later

theorem mem_members_addAll {groups : List FieldGroup} {fields : List Field} {f : Field} :
    f ∈ members (addAll groups fields) ↔ f ∈ members groups ∨ f ∈ fields := by
  induction fields generalizing groups with
  | nil => simp [addAll]
  | cons g rest ih =>
    rw [addAll, List.foldl_cons, ← addAll, ih, mem_members_add, List.mem_cons]
    tauto

end FieldGroup

namespace CollectContext

variable (c : CollectContext) (object : String)

/-- The collecting walk with no bound on its depth. `Gathers visited selections fields visited'`
says that walking `selections`, with the fragment names `visited` already visited, meets the
field nodes `fields` in document pre-order and ends having visited `visited'`. -/
inductive Gathers : List String → List Selection → List Field → List String → Prop
  | nil {V : List String} : Gathers V [] [] V
  | field {V V' : List String} {f : Field} {rest : List Selection} {fs : List Field} :
      c.includes f.directives = true → Gathers V rest fs V' →
      Gathers V (.field f :: rest) (f :: fs) V'
  | dropField {V V' : List String} {f : Field} {rest : List Selection} {fs : List Field} :
      c.includes f.directives = false → Gathers V rest fs V' →
      Gathers V (.field f :: rest) fs V'
  | inline {V V₁ V₂ : List String} {condition : String} {directives : List Directive}
      {inner rest : List Selection} {fs₁ fs₂ : List Field} :
      c.includes directives = true → c.Applies object condition →
      Gathers V inner fs₁ V₁ → Gathers V₁ rest fs₂ V₂ →
      Gathers V (.inline condition directives inner :: rest) (fs₁ ++ fs₂) V₂
  | dropInline {V V' : List String} {condition : String} {directives : List Directive}
      {inner rest : List Selection} {fs : List Field} :
      ¬(c.includes directives = true ∧ c.Applies object condition) → Gathers V rest fs V' →
      Gathers V (.inline condition directives inner :: rest) fs V'
  | dropSpread {V V' : List String} {name : String} {directives : List Directive}
      {rest : List Selection} {fs : List Field} :
      c.includes directives = false → Gathers V rest fs V' →
      Gathers V (.spread name directives :: rest) fs V'
  | seen {V V' : List String} {name : String} {directives : List Directive}
      {rest : List Selection} {fs : List Field} :
      c.includes directives = true → name ∈ V → Gathers V rest fs V' →
      Gathers V (.spread name directives :: rest) fs V'
  | idle {V V' : List String} {name : String} {directives : List Directive}
      {rest : List Selection} {fs : List Field} :
      c.includes directives = true → name ∉ V → (∀ frag, ¬c.Enters object name frag) →
      Gathers (V ++ [name]) rest fs V' → Gathers V (.spread name directives :: rest) fs V'
  | enter {V V₁ V₂ : List String} {name : String} {directives : List Directive}
      {rest : List Selection} {frag : Fragment} {fs₁ fs₂ : List Field} :
      c.includes directives = true → name ∉ V → c.Enters object name frag →
      Gathers (V ++ [name]) frag.selections fs₁ V₁ → Gathers V₁ rest fs₂ V₂ →
      Gathers V (.spread name directives :: rest) (fs₁ ++ fs₂) V₂

namespace Gathers

variable {c object}

/-- The walk meets one sequence of fields and visits one set of names. -/
theorem deterministic {V V' V'' : List String} {S : List Selection} {fs fs' : List Field}
    (first : c.Gathers object V S fs V') (second : c.Gathers object V S fs' V'') :
    fs = fs' ∧ V' = V'' := by
  induction first generalizing fs' V'' with
  | nil =>
    cases second
    exact ⟨rfl, rfl⟩
  | field kept _ ih =>
    cases second with
    | field _ rest =>
      obtain ⟨rfl, rfl⟩ := ih rest
      exact ⟨rfl, rfl⟩
    | dropField dropped _ => simp [kept] at dropped
  | dropField dropped _ ih =>
    cases second with
    | field kept _ => simp [kept] at dropped
    | dropField _ rest => exact ih rest
  | inline kept applies _ _ ih₁ ih₂ =>
    cases second with
    | inline _ _ inner rest =>
      obtain ⟨rfl, rfl⟩ := ih₁ inner
      obtain ⟨rfl, rfl⟩ := ih₂ rest
      exact ⟨rfl, rfl⟩
    | dropInline skipped _ => exact absurd ⟨kept, applies⟩ skipped
  | dropInline skipped _ ih =>
    cases second with
    | inline kept applies _ _ => exact absurd ⟨kept, applies⟩ skipped
    | dropInline _ rest => exact ih rest
  | dropSpread dropped _ ih =>
    cases second with
    | dropSpread _ rest => exact ih rest
    | seen kept _ _ | idle kept _ _ _ | enter kept _ _ _ _ => simp [kept] at dropped
  | seen kept visited _ ih =>
    cases second with
    | dropSpread dropped _ => simp [kept] at dropped
    | seen _ _ rest => exact ih rest
    | idle _ fresh _ _ | enter _ fresh _ _ _ => exact absurd visited fresh
  | idle kept fresh idle _ ih =>
    cases second with
    | dropSpread dropped _ => simp [kept] at dropped
    | seen _ visited _ => exact absurd visited fresh
    | idle _ _ _ rest => exact ih rest
    | enter _ _ enters _ _ => exact absurd enters (idle _)
  | enter kept fresh enters _ _ ih₁ ih₂ =>
    cases second with
    | dropSpread dropped _ => simp [kept] at dropped
    | seen _ visited _ => exact absurd visited fresh
    | idle _ _ idle _ => exact absurd enters (idle _)
    | enter _ _ enters' inner rest =>
      obtain rfl := enters_unique enters enters'
      obtain ⟨rfl, rfl⟩ := ih₁ inner
      obtain ⟨rfl, rfl⟩ := ih₂ rest
      exact ⟨rfl, rfl⟩

theorem visited_prefix {V V' : List String} {S : List Selection} {fs : List Field}
    (gathers : c.Gathers object V S fs V') : V <+: V' := by
  induction gathers with
  | nil => exact List.prefix_refl _
  | field _ _ ih | dropField _ _ ih | dropInline _ _ ih | dropSpread _ _ ih | seen _ _ _ ih =>
    exact ih
  | inline _ _ _ _ ih₁ ih₂ => exact ih₁.trans ih₂
  | idle _ _ _ _ ih => exact (List.prefix_append _ _).trans ih
  | enter _ _ _ _ _ ih₁ ih₂ => exact (List.prefix_append _ _).trans (ih₁.trans ih₂)

/-- The walk of a selection list is the walk of its first selection, then of the rest. -/
theorem cons {V V₁ V₂ : List String} {s : Selection} {rest : List Selection}
    {fs₁ fs₂ : List Field} (first : c.Gathers object V [s] fs₁ V₁)
    (later : c.Gathers object V₁ rest fs₂ V₂) :
    c.Gathers object V (s :: rest) (fs₁ ++ fs₂) V₂ := by
  cases first with
  | field kept nothing =>
    cases nothing
    exact .field kept later
  | dropField dropped nothing =>
    cases nothing
    exact .dropField dropped later
  | inline kept applies inside nothing =>
    cases nothing
    rw [List.append_nil]
    exact .inline kept applies inside later
  | dropInline skipped nothing =>
    cases nothing
    exact .dropInline skipped later
  | dropSpread dropped nothing =>
    cases nothing
    exact .dropSpread dropped later
  | seen kept visited nothing =>
    cases nothing
    exact .seen kept visited later
  | idle kept fresh idle nothing =>
    cases nothing
    exact .idle kept fresh idle later
  | enter kept fresh enters inside nothing =>
    cases nothing
    rw [List.append_nil]
    exact .enter kept fresh enters inside later

end Gathers

/-- Collecting turns one accumulator into another as the walk of `selections` says: the groups
gain the fields the walk meets, and the visited names are those it ends with. -/
def GathersInto (acc : List FieldGroup × List String) (selections : List Selection)
    (acc' : List FieldGroup × List String) : Prop :=
  ∃ fields, c.Gathers object acc.2 selections fields acc'.2 ∧
    acc'.1 = FieldGroup.addAll acc.1 fields

variable {c object}

theorem GathersInto.visited_prefix {acc acc' : List FieldGroup × List String}
    {selections : List Selection} (gathers : c.GathersInto object acc selections acc') :
    acc.2 <+: acc'.2 := by
  obtain ⟨fs, walk, -⟩ := gathers
  exact walk.visited_prefix

theorem GathersInto.cons {acc acc₁ acc₂ : List FieldGroup × List String} {s : Selection}
    {rest : List Selection} (first : c.GathersInto object acc [s] acc₁)
    (later : c.GathersInto object acc₁ rest acc₂) :
    c.GathersInto object acc (s :: rest) acc₂ := by
  obtain ⟨fs₁, walk₁, grouped₁⟩ := first
  obtain ⟨fs₂, walk₂, grouped₂⟩ := later
  refine ⟨fs₁ ++ fs₂, walk₁.cons walk₂, ?_⟩
  rw [grouped₂, grouped₁, FieldGroup.addAll_append]

theorem gathersInto_tail {fuel : Nat} {acc acc₁ : List FieldGroup × List String} {s : Selection}
    {rest : List Selection} (enough : (c.unvisited acc.2).card < fuel)
    (first : c.GathersInto object acc [s] acc₁)
    (later : ∀ acc' : List FieldGroup × List String, (c.unvisited acc'.2).card < fuel →
      c.GathersInto object acc' rest (c.collectInto object fuel acc' rest)) :
    c.GathersInto object acc (s :: rest) (c.collectInto object fuel acc₁ rest) :=
  first.cons (later acc₁ (card_unvisited_lt enough first.visited_prefix))

/-- Collecting with fuel beyond the names not yet visited follows the walk, adding the fields it
meets to the groups. -/
theorem collectInto_gathers (fuel : Nat) (acc : List FieldGroup × List String)
    (selections : List Selection) (enough : (c.unvisited acc.2).card < fuel) :
    c.GathersInto object acc selections (c.collectInto object fuel acc selections) := by
  match selections with
  | [] =>
    rw [collectInto]
    exact ⟨[], .nil, rfl⟩
  | .field g :: rest =>
    rw [collectInto]
    refine gathersInto_tail enough ?_ fun acc' => collectInto_gathers fuel acc' rest
    split
    case isTrue kept => exact ⟨[g], .field kept .nil, rfl⟩
    case isFalse dropped => exact ⟨[], .dropField (by simpa using dropped) .nil, rfl⟩
  | .inline condition directives inner :: rest =>
    rw [collectInto]
    refine gathersInto_tail enough ?_ fun acc' => collectInto_gathers fuel acc' rest
    split
    case isTrue entering =>
      simp only [Bool.and_eq_true] at entering
      obtain ⟨fs, inside, grouped⟩ := collectInto_gathers fuel acc inner enough
      refine ⟨fs, ?_, grouped⟩
      rw [← List.append_nil fs]
      exact .inline entering.1 ((c.applies_iff object).mp entering.2) inside .nil
    case isFalse skipped =>
      have dropped : ¬(c.includes directives = true ∧ c.Applies object condition) := by
        rw [← c.applies_iff object]
        simpa using skipped
      exact ⟨[], .dropInline dropped .nil, rfl⟩
  | .spread name directives :: rest =>
    rw [collectInto]
    refine gathersInto_tail enough ?_ fun acc' => collectInto_gathers fuel acc' rest
    split
    case isTrue passed =>
      refine ⟨[], ?_, rfl⟩
      cases kept : c.includes directives
      · exact .dropSpread kept .nil
      · exact .seen kept (by simpa [kept] using passed) .nil
    case isFalse kept =>
      simp only [Bool.or_eq_true, Bool.not_eq_true', not_or, Bool.not_eq_false] at kept
      have fresh : name ∉ acc.2 := by simpa using kept.2
      split
      case h_1 frag fuel' found =>
        split
        case isTrue entering =>
          simp only [Bool.and_eq_true] at entering
          have enters : c.Enters object name frag :=
            ⟨found, (c.applies_iff object).mp entering.1, entering.2⟩
          have enough' : (c.unvisited (acc.2 ++ [name])).card < fuel' := by
            have fewer := c.card_unvisited_visit found fresh
            omega
          obtain ⟨fs, inside, grouped⟩ := collectInto_gathers fuel' (acc.1, acc.2 ++ [name])
            frag.selections enough'
          refine ⟨fs, ?_, grouped⟩
          rw [← List.append_nil fs]
          exact .enter kept.1 fresh enters inside .nil
        case isFalse idle => exact ⟨[], .idle kept.1 fresh (not_enters found idle) .nil, rfl⟩
      case h_2 missing =>
        have idle : ∀ frag, ¬c.Enters object name frag := by
          intro frag enters
          obtain ⟨fuel', more, -⟩ := fuel_for_entry enough fresh enters.1
          exact missing frag fuel' enters.1 more
        exact ⟨[], .idle kept.1 fresh idle .nil, rfl⟩
termination_by (fuel, sizeOf selections)

/-- Collecting fields on an object type follows the walk with no bound, which meets exactly the
fields the selections select, in document pre-order: there is one group per response key, in
the order the keys first occur, and each group holds the walk's fields of its key in order. -/
theorem collect_groups_in_walk_order (c : CollectContext) (object : String)
    (selections : List Selection) :
    ∃ fields visited, c.Gathers object [] selections fields visited ∧
      (∀ fields' visited', c.Gathers object [] selections fields' visited' → fields' = fields) ∧
      (∀ f, f ∈ fields ↔ c.Selects object selections f) ∧
      (c.collect object selections).map (·.key) = (fields.map (·.responseKey)).eraseDups ∧
      ∀ g ∈ c.collect object selections, g.fields = fields.filter (·.responseKey == g.key) := by
  have gathered : c.GathersInto object ([], []) selections
      (c.collectInto object (c.document.fragments.length + 1) ([], []) selections) :=
    collectInto_gathers _ _ _ c.card_unvisited_nil_lt
  obtain ⟨fields, walk, grouped⟩ := gathered
  have collected : c.collect object selections = FieldGroup.addAll [] fields := grouped
  refine ⟨fields, _, walk, fun fields' visited' walk' => (walk.deterministic walk').1.symm,
    ?_, ?_, ?_⟩
  · intro f
    rw [← mem_collect_iff, collected, FieldGroup.mem_members_addAll]
    simp [FieldGroup.members]
  · rw [collected, @FieldGroup.keys_addAll [] List.nodup_nil fields, List.map_nil,
      List.nil_append]
  · intro g member
    rw [FieldGroup.fields_eq_fieldsOf (c.collect_nodup object selections) member, collected,
      FieldGroup.fieldsOf_addAll]
    simp [FieldGroup.fieldsOf]

end CollectContext

end GraphWeave
