import GraphWeave.Execution.Selection
import Mathlib

/-!
The fields a selection set selects on an object type. Collecting (`CollectContext.collect`) walks
the selections once, enters each named fragment at most once, and bounds the nesting of fragments by
its fuel.
-/

namespace GraphWeave

namespace Schema

/-- The object types an abstract type admits, said by the schema's types: the type itself, the
members of a union, and the object types that declare an interface. -/
def Possible (s : Schema) (abstract object : String) : Prop :=
  abstract = object ∨
    (∃ u, s.type? abstract = some u ∧ u.kind = .union ∧ object ∈ u.possibleTypes) ∨
    ∃ i o, s.type? abstract = some i ∧ i.kind = .interface ∧ s.type? object = some o ∧
      abstract ∈ o.interfaces

theorem isPossibleType_iff {s : Schema} {abstract object : String} :
    s.isPossibleType abstract object = true ↔ s.Possible abstract object := by
  unfold isPossibleType Possible
  by_cases same : abstract = object
  · simp [same]
  · simp only [beq_iff_eq, same, if_false, false_or]
    cases found : s.type? abstract with
    | none => simp
    | some t =>
      cases kind : t.kind <;> cases s.type? object <;> simp [kind]

end Schema

namespace FieldGroup

/-- The field nodes of groups, group after group. -/
def members (groups : List FieldGroup) : List Field := groups.flatMap (·.fields)

theorem mem_members_add {groups : List FieldGroup} {key : String} {f f' : Field} :
    f' ∈ members (add groups key f) ↔ f' ∈ members groups ∨ f' = f := by
  unfold add members
  split
  case isTrue present =>
    obtain ⟨g, member, keyed⟩ := List.any_eq_true.mp present
    simp only [List.mem_flatMap, List.mem_map]
    constructor
    · rintro ⟨_, ⟨g', member', rfl⟩, inside⟩
      split at inside
      · rcases List.mem_append.mp inside with old | new
        · exact .inl ⟨g', member', old⟩
        · exact .inr (List.mem_singleton.mp new)
      · exact .inl ⟨g', member', inside⟩
    · rintro (⟨g', member', inside⟩ | rfl)
      · refine ⟨_, ⟨g', member', rfl⟩, ?_⟩
        split
        · exact List.mem_append_left _ inside
        · exact inside
      · exact ⟨_, ⟨g, member, rfl⟩, by simp [keyed]⟩
  case isFalse => simp

end FieldGroup

namespace CollectContext

variable (c : CollectContext) (object : String)

/-- Whether a type condition applies to an object type: none is written, or the object type is
possible for the type it names. -/
def Applies (condition : String) : Prop :=
  condition = "" ∨ c.schema.Possible condition object

theorem applies_iff {condition : String} :
    c.applies object condition = true ↔ c.Applies object condition := by
  simp [applies, Applies, Schema.isPossibleType_iff]

/-- A named fragment that collecting on the object type enters: it is defined, its type
condition applies, and its directives keep it. -/
def Enters (name : String) (frag : Fragment) : Prop :=
  c.document.fragment? name = some frag ∧ c.Applies object frag.typeCondition ∧
    c.includes frag.directives = true

/-- A field node that selections reach on the object type, through the named fragments
`entered` in order: a field the directives keep, or one reached inside an inline fragment or a
fragment spread that applies, or one reached by the selections after the first. -/
inductive Reaches : List String → List Selection → Field → Prop
  | field {f : Field} {rest : List Selection} :
      c.includes f.directives = true → Reaches [] (.field f :: rest) f
  | inline {condition : String} {directives : List Directive} {inner rest : List Selection}
      {entered : List String} {f : Field} :
      c.includes directives = true → c.Applies object condition → Reaches entered inner f →
      Reaches entered (.inline condition directives inner :: rest) f
  | spread {name : String} {directives : List Directive} {frag : Fragment}
      {rest : List Selection} {entered : List String} {f : Field} :
      c.includes directives = true → c.Enters object name frag →
      Reaches entered frag.selections f →
      Reaches (name :: entered) (.spread name directives :: rest) f
  | later {s : Selection} {rest : List Selection} {entered : List String} {f : Field} :
      Reaches entered rest f → Reaches entered (s :: rest) f

/-- A field node that selections select on the object type. -/
def Selects (selections : List Selection) (f : Field) : Prop :=
  ∃ entered, c.Reaches object entered selections f

/-- Every field collected after `acc` is one the selections select. -/
theorem collectInto_sound (fuel : Nat) (acc : List FieldGroup × List String)
    (selections : List Selection) :
    ∀ f ∈ FieldGroup.members (c.collectInto object fuel acc selections).1,
      f ∈ FieldGroup.members acc.1 ∨ c.Selects object selections f := by
  match selections with
  | [] =>
    rw [collectInto]
    exact fun f old => .inl old
  | .field g :: rest =>
    rw [collectInto]
    intro f member
    rcases collectInto_sound fuel _ rest f member with old | ⟨entered, later⟩
    · split at old
      case isTrue kept =>
        rcases FieldGroup.mem_members_add.mp old with old | rfl
        · exact .inl old
        · exact .inr ⟨[], .field kept⟩
      case isFalse => exact .inl old
    · exact .inr ⟨entered, .later later⟩
  | .inline condition directives inner :: rest =>
    rw [collectInto]
    intro f member
    rcases collectInto_sound fuel _ rest f member with old | ⟨entered, later⟩
    · split at old
      case isTrue entering =>
        simp only [Bool.and_eq_true] at entering
        rcases collectInto_sound fuel acc inner f old with old | ⟨entered, inside⟩
        · exact .inl old
        · exact .inr ⟨entered, .inline entering.1 ((c.applies_iff object).mp entering.2) inside⟩
      case isFalse => exact .inl old
    · exact .inr ⟨entered, .later later⟩
  | .spread name directives :: rest =>
    rw [collectInto]
    intro f member
    rcases collectInto_sound fuel _ rest f member with old | ⟨entered, later⟩
    · split at old
      case isTrue => exact .inl old
      case isFalse kept =>
        simp only [Bool.or_eq_true, Bool.not_eq_true', not_or, Bool.not_eq_false] at kept
        split at old
        case h_1 frag fuel' found =>
          split at old
          case isTrue entering =>
            simp only [Bool.and_eq_true] at entering
            rcases collectInto_sound fuel' _ frag.selections f old with old | ⟨entered, inside⟩
            · exact .inl old
            · exact .inr ⟨name :: entered, .spread kept.1
                ⟨found, (c.applies_iff object).mp entering.1, entering.2⟩ inside⟩
          case isFalse => exact .inl old
        case h_2 => exact .inl old
    · exact .inr ⟨entered, .later later⟩
termination_by (fuel, sizeOf selections)

/-! ### Every selected field is collected -/

/-- One accumulator extends another: it keeps the other's collected fields, and its visited
names continue the other's. -/
def Extends (acc acc' : List FieldGroup × List String) : Prop :=
  (∀ f ∈ FieldGroup.members acc.1, f ∈ FieldGroup.members acc'.1) ∧ acc.2 <+: acc'.2

theorem Extends.refl (acc : List FieldGroup × List String) : Extends acc acc :=
  ⟨fun _ old => old, List.prefix_refl _⟩

theorem Extends.trans {acc acc' acc'' : List FieldGroup × List String} (first : Extends acc acc')
    (second : Extends acc' acc'') : Extends acc acc'' :=
  ⟨fun f old => second.1 f (first.1 f old), first.2.trans second.2⟩

theorem collectInto_extends (fuel : Nat) (acc : List FieldGroup × List String)
    (selections : List Selection) : Extends acc (c.collectInto object fuel acc selections) := by
  match selections with
  | [] =>
    rw [collectInto]
    exact Extends.refl acc
  | .field g :: rest =>
    rw [collectInto]
    refine Extends.trans ?_ (collectInto_extends fuel _ rest)
    split
    · exact ⟨fun f old => FieldGroup.mem_members_add.mpr (.inl old), List.prefix_refl _⟩
    · exact Extends.refl acc
  | .inline condition directives inner :: rest =>
    rw [collectInto]
    refine Extends.trans ?_ (collectInto_extends fuel _ rest)
    split
    · exact collectInto_extends fuel acc inner
    · exact Extends.refl acc
  | .spread name directives :: rest =>
    rw [collectInto]
    refine Extends.trans ?_ (collectInto_extends fuel _ rest)
    have visit : Extends acc (acc.1, acc.2 ++ [name]) :=
      ⟨fun _ old => old, List.prefix_append _ _⟩
    split
    · exact Extends.refl acc
    · split
      · split
        · exact visit.trans (collectInto_extends _ _ _)
        · exact visit
      · exact visit
termination_by (fuel, sizeOf selections)

/-- The names of the document's fragments not visited yet. -/
def unvisited (visited : List String) : Finset String :=
  (c.document.fragments.map (·.name)).toFinset \ visited.toFinset

theorem unvisited_anti {visited visited' : List String} (longer : visited <+: visited') :
    c.unvisited visited' ⊆ c.unvisited visited :=
  Finset.sdiff_subset_sdiff le_rfl fun n member => by
    simp only [List.mem_toFinset] at member ⊢
    exact longer.subset member

/-- Visiting the name of a fragment for the first time leaves one name fewer unvisited. -/
theorem card_unvisited_visit {name : String} {frag : Fragment}
    (found : c.document.fragment? name = some frag) {visited : List String}
    (fresh : name ∉ visited) :
    (c.unvisited (visited ++ [name])).card + 1 = (c.unvisited visited).card := by
  have named : name ∈ c.document.fragments.map (·.name) := by
    have same : frag.name = name := by simpa using List.find?_some found
    exact List.mem_map.mpr ⟨frag, List.mem_of_find?_eq_some found, same⟩
  have waiting : name ∈ c.unvisited visited := by
    simp [unvisited, named, fresh]
  have erased : c.unvisited (visited ++ [name]) = (c.unvisited visited).erase name := by
    rw [unvisited, List.toFinset_append, List.toFinset_cons, List.toFinset_nil,
      insert_empty_eq, Finset.union_comm, ← Finset.insert_eq, Finset.sdiff_insert, unvisited]
  rw [erased, Finset.card_erase_of_mem waiting]
  have nonempty := Finset.card_pos.mpr ⟨name, waiting⟩
  omega

variable {c object}

theorem enters_unique {name : String} {frag frag' : Fragment} (enters : c.Enters object name frag)
    (enters' : c.Enters object name frag') : frag = frag' :=
  Option.some.inj (enters.1.symm.trans enters'.1)

theorem not_enters {name : String} {frag : Fragment} (found : c.document.fragment? name = some frag)
    (idle : ¬(c.applies object frag.typeCondition && c.includes frag.directives) = true) :
    ∀ frag', ¬c.Enters object name frag' := by
  intro frag' enters
  obtain ⟨found', applies, kept⟩ := enters
  obtain rfl := Option.some.inj (found.symm.trans found')
  exact idle (by simp [(c.applies_iff object).mpr applies, kept])

theorem card_unvisited_lt {V V' : List String} {fuel : Nat}
    (enough : (c.unvisited V).card < fuel) (longer : V <+: V') : (c.unvisited V').card < fuel :=
  lt_of_le_of_lt (Finset.card_le_card (c.unvisited_anti longer)) enough

theorem fuel_for_entry {V : List String} {fuel : Nat} {name : String} {frag : Fragment}
    (enough : (c.unvisited V).card < fuel) (fresh : name ∉ V)
    (found : c.document.fragment? name = some frag) :
    ∃ fuel', fuel = fuel' + 1 ∧ (c.unvisited (V ++ [name])).card < fuel' := by
  have fewer := c.card_unvisited_visit found fresh
  exact ⟨fuel - 1, by omega, by omega⟩

/-- A path that passes through a named fragment goes on from that fragment's selections. -/
theorem Reaches.through {entered : List String} {selections : List Selection} {f : Field}
    (reaches : c.Reaches object entered selections f) {before after : List String} {name : String}
    (passes : entered = before ++ name :: after) :
    ∃ frag, c.Enters object name frag ∧ c.Reaches object after frag.selections f := by
  induction reaches generalizing before with
  | field => simp at passes
  | inline _ _ _ ih => exact ih passes
  | @spread name' _ frag _ entered' _ _ enters inner ih =>
    cases before with
    | nil =>
      obtain ⟨rfl, rfl⟩ := List.cons.inj passes
      exact ⟨frag, enters, inner⟩
    | cons first before =>
      exact ih (List.cons.inj passes).2
  | later _ ih => exact ih passes

/-- The selections before the rest reach on their own: a path either starts at the first
selection or is one of the rest. -/
theorem reaches_cons_iff {entered : List String} {s : Selection} {rest : List Selection}
    {f : Field} :
    c.Reaches object entered (s :: rest) f ↔
      c.Reaches object entered [s] f ∨ c.Reaches object entered rest f := by
  constructor
  · intro reaches
    cases reaches with
    | field kept => exact .inl (.field kept)
    | inline kept applies inner => exact .inl (.inline kept applies inner)
    | spread kept enters inner => exact .inl (.spread kept enters inner)
    | later later => exact .inr later
  · rintro (first | later)
    · cases first with
      | field kept => exact .field kept
      | inline kept applies inner => exact .inline kept applies inner
      | spread kept enters inner => exact .spread kept enters inner
      | later nothing => cases nothing
    · exact .later later

variable (c object) (stack : List String)

/-- The fields the selections reach are collected, but for those reached through a fragment on
the stack: the fragments being entered, whose entries collect them. -/
def Covered (acc : List FieldGroup × List String) (selections : List Selection) : Prop :=
  ∀ entered f, c.Reaches object entered selections f →
    f ∈ FieldGroup.members acc.1 ∨ ∃ m ∈ stack, m ∈ entered

/-- Every visited fragment off the stack that collecting enters is covered. -/
def Done (acc : List FieldGroup × List String) : Prop :=
  ∀ n ∈ acc.2, n ∉ stack → ∀ frag, c.Enters object n frag → c.Covered object stack acc frag.selections

variable {c object stack}

theorem Covered.mono {acc acc' : List FieldGroup × List String} {selections : List Selection}
    (covered : c.Covered object stack acc selections)
    (kept : ∀ f ∈ FieldGroup.members acc.1, f ∈ FieldGroup.members acc'.1) :
    c.Covered object stack acc' selections := fun entered f reaches =>
  (covered entered f reaches).imp_left (kept f)

theorem Covered.cons {acc : List FieldGroup × List String} {s : Selection}
    {rest : List Selection} (first : c.Covered object stack acc [s])
    (later : c.Covered object stack acc rest) : c.Covered object stack acc (s :: rest) :=
  fun entered f reaches => reaches_cons_iff.mp reaches |>.elim (first entered f) (later entered f)

theorem Done.mono {acc acc' : List FieldGroup × List String} (done : c.Done object stack acc)
    (kept : ∀ f ∈ FieldGroup.members acc.1, f ∈ FieldGroup.members acc'.1)
    (visited : ∀ n ∈ acc'.2, n ∈ acc.2) : c.Done object stack acc' :=
  fun n member off frag enters => (done n (visited n member) off frag enters).mono kept

theorem Done.visit_idle {acc : List FieldGroup × List String} {name : String}
    (done : c.Done object stack acc) (idle : ∀ frag, ¬ c.Enters object name frag) :
    c.Done object stack (acc.1, acc.2 ++ [name]) := by
  intro n member off frag enters
  rcases List.mem_append.mp member with old | new
  · exact done n old off frag enters
  · obtain rfl := List.mem_singleton.mp new
    exact absurd enters (idle frag)

theorem Done.push {acc : List FieldGroup × List String} {name : String}
    (done : c.Done object stack acc) :
    c.Done object (stack ++ [name]) (acc.1, acc.2 ++ [name]) := by
  intro n member off frag enters entered f reaches
  have old : n ∈ acc.2 := by
    rcases List.mem_append.mp member with old | new
    · exact old
    · exact absurd (List.mem_append_right _ new) off
  rcases done n old (fun on => off (List.mem_append_left _ on)) frag enters entered f reaches with
    got | ⟨m, on, passed⟩
  · exact .inl got
  · exact .inr ⟨m, List.mem_append_left _ on, passed⟩

/-- A fragment whose entry collected everything it reaches but through the stack with it on
top has collected everything it reaches but through the stack: reaching it again on the way is
a shorter path from its own selections. -/
theorem covered_of_entered {acc : List FieldGroup × List String} {name : String}
    {frag : Fragment} (enters : c.Enters object name frag)
    (covered : c.Covered object (stack ++ [name]) acc frag.selections) :
    c.Covered object stack acc frag.selections := by
  suffices shorter : ∀ k entered f, entered.length = k →
      c.Reaches object entered frag.selections f →
      f ∈ FieldGroup.members acc.1 ∨ ∃ m ∈ stack, m ∈ entered from
    fun entered f reaches => shorter _ entered f rfl reaches
  intro k
  induction k using Nat.strong_induction_on with
  | _ k ih =>
    intro entered f length reaches
    rcases covered entered f reaches with got | ⟨m, on, passed⟩
    · exact .inl got
    · rcases List.mem_append.mp on with old | new
      · exact .inr ⟨m, old, passed⟩
      · obtain rfl := List.mem_singleton.mp new
        obtain ⟨before, after, rfl⟩ := List.append_of_mem passed
        obtain ⟨frag', enters', again⟩ := reaches.through rfl
        obtain rfl := enters_unique enters enters'
        have fewer : after.length < k := by
          rw [← length, List.length_append, List.length_cons]
          omega
        rcases ih after.length fewer after f rfl again with got | ⟨m, old, later⟩
        · exact .inl got
        · exact .inr ⟨m, old, by simp [later]⟩

/-- Taking a fragment whose entry is finished off the stack keeps the visited fragments done. -/
theorem Done.pop {acc : List FieldGroup × List String} {name : String} {frag : Fragment}
    (done : c.Done object (stack ++ [name]) acc) (enters : c.Enters object name frag)
    (finished : c.Covered object stack acc frag.selections) : c.Done object stack acc := by
  intro n member off frag' enters' entered f reaches
  by_cases same : n = name
  · subst same
    obtain rfl := enters_unique enters enters'
    exact finished entered f reaches
  · have off' : n ∉ stack ++ [name] := by simp [off, same]
    rcases done n member off' frag' enters' entered f reaches with got | ⟨m, on, passed⟩
    · exact .inl got
    · rcases List.mem_append.mp on with old | new
      · exact .inr ⟨m, old, passed⟩
      · obtain rfl := List.mem_singleton.mp new
        obtain ⟨before, after, rfl⟩ := List.append_of_mem passed
        obtain ⟨frag'', enters'', again⟩ := reaches.through rfl
        obtain rfl := enters_unique enters enters''
        rcases finished after f again with got | ⟨m, old, later⟩
        · exact .inl got
        · exact .inr ⟨m, old, by simp [later]⟩

theorem visit_idle {acc : List FieldGroup × List String} {name : String}
    {directives : List Directive} (done : c.Done object stack acc)
    (idle : ∀ frag, ¬ c.Enters object name frag) :
    c.Done object stack (acc.1, acc.2 ++ [name]) ∧
      c.Covered object stack (acc.1, acc.2 ++ [name]) [.spread name directives] ∧
      Extends acc (acc.1, acc.2 ++ [name]) := by
  refine ⟨done.visit_idle idle, fun entered f reaches => ?_, fun _ old => old,
    List.prefix_append _ _⟩
  cases reaches with
  | spread _ enters _ => exact absurd enters (idle _)
  | later nothing => cases nothing

theorem covered_tail {fuel : Nat} {acc acc₁ : List FieldGroup × List String} {s : Selection}
    {rest : List Selection} (onStack : ∀ n ∈ stack, n ∈ acc.2)
    (enough : (c.unvisited acc.2).card < fuel)
    (first : c.Done object stack acc₁ ∧ c.Covered object stack acc₁ [s] ∧ Extends acc acc₁)
    (later : ∀ acc' : List FieldGroup × List String, (∀ n ∈ stack, n ∈ acc'.2) →
      c.Done object stack acc' → (c.unvisited acc'.2).card < fuel →
      c.Done object stack (c.collectInto object fuel acc' rest) ∧
        c.Covered object stack (c.collectInto object fuel acc' rest) rest) :
    c.Done object stack (c.collectInto object fuel acc₁ rest) ∧
      c.Covered object stack (c.collectInto object fuel acc₁ rest) (s :: rest) := by
  obtain ⟨done₁, covered₁, grows₁⟩ := first
  have onStack₁ : ∀ n ∈ stack, n ∈ acc₁.2 := fun n on => grows₁.2.subset (onStack n on)
  obtain ⟨done', covered'⟩ := later acc₁ onStack₁ done₁ (card_unvisited_lt enough grows₁.2)
  exact ⟨done', (covered₁.mono (collectInto_extends c object fuel acc₁ rest).1).cons covered'⟩

/-- Collecting from an accumulator whose visited fragments are done, with the fragments being
entered on the stack and fuel for every unvisited name, keeps the visited fragments done and
covers what the selections reach. -/
theorem collectInto_complete (fuel : Nat) (acc : List FieldGroup × List String)
    (selections : List Selection) (stack : List String) (onStack : ∀ n ∈ stack, n ∈ acc.2)
    (done : c.Done object stack acc) (enough : (c.unvisited acc.2).card < fuel) :
    c.Done object stack (c.collectInto object fuel acc selections) ∧
      c.Covered object stack (c.collectInto object fuel acc selections) selections := by
  match selections with
  | [] =>
    rw [collectInto]
    exact ⟨done, fun entered f reaches => by cases reaches⟩
  | .field g :: rest =>
    rw [collectInto]
    refine covered_tail onStack enough ?_ fun acc' => collectInto_complete fuel acc' rest stack
    split
    case isTrue kept =>
      have grows : ∀ f ∈ FieldGroup.members acc.1,
          f ∈ FieldGroup.members (FieldGroup.add acc.1 g.responseKey g) :=
        fun f old => FieldGroup.mem_members_add.mpr (.inl old)
      refine ⟨done.mono grows fun n => id, fun entered f reaches => ?_, grows, List.prefix_refl _⟩
      cases reaches with
      | field => exact .inl (FieldGroup.mem_members_add.mpr (.inr rfl))
      | later nothing => cases nothing
    case isFalse dropped =>
      refine ⟨done, fun entered f reaches => ?_, Extends.refl acc⟩
      cases reaches with
      | field kept => exact absurd kept dropped
      | later nothing => cases nothing
  | .inline condition directives inner :: rest =>
    rw [collectInto]
    refine covered_tail onStack enough ?_ fun acc' => collectInto_complete fuel acc' rest stack
    split
    case isTrue entering =>
      obtain ⟨done', covered'⟩ := collectInto_complete fuel acc inner stack onStack done enough
      refine ⟨done', fun entered f reaches => ?_, collectInto_extends c object fuel acc inner⟩
      cases reaches with
      | inline _ _ inside => exact covered' entered f inside
      | later nothing => cases nothing
    case isFalse skipped =>
      refine ⟨done, fun entered f reaches => ?_, Extends.refl acc⟩
      cases reaches with
      | inline kept applies _ =>
        exact absurd (by simp [kept, (c.applies_iff object).mpr applies]) skipped
      | later nothing => cases nothing
  | .spread name directives :: rest =>
    rw [collectInto]
    refine covered_tail onStack enough ?_ fun acc' => collectInto_complete fuel acc' rest stack
    split
    case isTrue skipped =>
      refine ⟨done, fun entered f reaches => ?_, Extends.refl acc⟩
      cases reaches with
      | spread kept enters inside =>
        have visited : name ∈ acc.2 := by simpa [kept] using skipped
        by_cases on : name ∈ stack
        · exact .inr ⟨name, on, List.mem_cons_self⟩
        · rcases done name visited on _ enters _ f inside with got | ⟨m, on', passed⟩
          · exact .inl got
          · exact .inr ⟨m, on', List.mem_cons_of_mem _ passed⟩
      | later nothing => cases nothing
    case isFalse kept =>
      have fresh : name ∉ acc.2 := by simp_all
      split
      case h_1 frag fuel' found =>
        split
        case isTrue entering =>
          simp only [Bool.and_eq_true] at entering
          have enters : c.Enters object name frag :=
            ⟨found, (c.applies_iff object).mp entering.1, entering.2⟩
          have enough' : (c.unvisited (acc.2 ++ [name])).card < fuel' := by
            have fewer := c.card_unvisited_visit found fresh
            omega
          have onStack' : ∀ n ∈ stack ++ [name], n ∈ acc.2 ++ [name] := by
            intro n on
            simp only [List.mem_append, List.mem_singleton] at on ⊢
            exact on.imp_left (onStack n)
          obtain ⟨done', covered'⟩ := collectInto_complete fuel' (acc.1, acc.2 ++ [name])
            frag.selections (stack ++ [name]) onStack' done.push enough'
          have finished := covered_of_entered enters covered'
          have visit : Extends acc (acc.1, acc.2 ++ [name]) :=
            ⟨fun _ old => old, List.prefix_append _ _⟩
          refine ⟨done'.pop enters finished, fun entered f reaches => ?_,
            visit.trans (collectInto_extends c object _ _ _)⟩
          cases reaches with
          | spread _ enters' inside =>
            obtain rfl := enters_unique enters enters'
            rcases finished _ f inside with got | ⟨m, on, passed⟩
            · exact .inl got
            · exact .inr ⟨m, on, List.mem_cons_of_mem _ passed⟩
          | later nothing => cases nothing
        case isFalse idle => exact visit_idle done (not_enters found idle)
      case h_2 missing =>
        refine visit_idle done fun frag enters => ?_
        obtain ⟨fuel', more, -⟩ := fuel_for_entry enough fresh enters.1
        exact missing frag fuel' enters.1 more
termination_by (fuel, sizeOf selections)

theorem card_unvisited_nil_lt (c : CollectContext) :
    (c.unvisited []).card < c.document.fragments.length + 1 := by
  have names := List.toFinset_card_le (c.document.fragments.map (·.name))
  simp only [List.length_map] at names
  simp only [unvisited, List.toFinset_nil, Finset.sdiff_empty]
  omega

theorem mem_collect_iff (c : CollectContext) (object : String) (selections : List Selection)
    (f : Field) :
    f ∈ FieldGroup.members (c.collect object selections) ↔ c.Selects object selections f := by
  constructor
  · intro member
    rcases c.collectInto_sound object _ ([], []) selections f member with none | selected
    · simp [FieldGroup.members] at none
    · exact selected
  · rintro ⟨entered, reaches⟩
    obtain ⟨-, covered⟩ := collectInto_complete _ ([], []) selections [] (by simp)
      (fun n member => by simp at member) c.card_unvisited_nil_lt
    rcases covered entered f reaches with got | ⟨m, on, -⟩
    · exact got
    · simp at on

end CollectContext

end GraphWeave
