import GraphWeave.Execution.Response
import Mathlib

/-! Positions in a response tree: the value at a path, and paths the tree has nulled. Writing a
value where a placeholder stands leaves every other position as it was. -/

namespace GraphWeave.ResponseValue

/-- The value at a path: a key names the first entry of an object with that key, an index the
item of a list; any other step leads nowhere. -/
def at? : ResponseValue → Path → Option ResponseValue
  | t, [] => some t
  | .object fs, .key k :: rest => (fs.lookup k).bind (·.at? rest)
  | .list xs, .index i :: rest => xs[i]?.bind (·.at? rest)
  | _, _ :: _ => none

/-- Whether walking a path meets a null, or a step that leads nowhere, before it meets a
placeholder: the position is null or absent, and stays so whatever fills the placeholders. -/
def nulledAt : ResponseValue → Path → Bool
  | .null, _ => true
  | .leaf _, _ :: _ => true
  | .object fs, .key k :: rest =>
    match fs.lookup k with
    | some v => v.nulledAt rest
    | none => true
  | .list xs, .index i :: rest =>
    match xs[i]? with
    | some x => x.nulledAt rest
    | none => true
  | .object _, .index _ :: _ => true
  | .list _, .key _ :: _ => true
  | _, _ => false

@[simp] theorem at?_nil (t : ResponseValue) : t.at? [] = some t := by
  cases t <;> rfl

@[simp] theorem at?_object_key (fs : List (String × ResponseValue)) (k : String) (rest : Path) :
    (ResponseValue.object fs).at? (.key k :: rest) = (fs.lookup k).bind (·.at? rest) := rfl

@[simp] theorem at?_list_index (xs : List ResponseValue) (i : Nat) (rest : Path) :
    (ResponseValue.list xs).at? (.index i :: rest) = xs[i]?.bind (·.at? rest) := rfl

@[simp] theorem at?_pending_cons (s : PathSegment) (rest : Path) :
    ResponseValue.pending.at? (s :: rest) = none := by
  cases s <;> simp [at?]

@[simp] theorem at?_null_cons (s : PathSegment) (rest : Path) :
    ResponseValue.null.at? (s :: rest) = none := by
  cases s <;> rfl

@[simp] theorem at?_leaf_cons (j : Json) (s : PathSegment) (rest : Path) :
    (ResponseValue.leaf j).at? (s :: rest) = none := by
  cases s <;> rfl

@[simp] theorem nulledAt_null (p : Path) : ResponseValue.null.nulledAt p = true := by
  cases p <;> rfl

@[simp] theorem nulledAt_pending (p : Path) : ResponseValue.pending.nulledAt p = false := by
  cases p <;> rfl

/-- What a nulled path means: its value, or the value at a shorter prefix, is null or absent. -/
theorem nulledAt_spec {t : ResponseValue} {p : Path} (nulled : t.nulledAt p = true) :
    ∃ q, q <+: p ∧ (t.at? q = none ∨ t.at? q = some .null) := by
  induction p generalizing t with
  | nil =>
    cases t <;> simp_all [nulledAt]
  | cons s rest ih =>
    cases t with
    | null => exact ⟨[], List.nil_prefix, .inr (by simp)⟩
    | leaf j => exact ⟨[s], by simp, .inl (by cases s <;> rfl)⟩
    | pending => simp at nulled
    | object fs =>
      cases s with
      | key k =>
        cases found : fs.lookup k with
        | none => exact ⟨[.key k], by simp, .inl (by simp [found])⟩
        | some v =>
          simp only [nulledAt, found] at nulled
          obtain ⟨q, leading, holds⟩ := ih nulled
          exact ⟨.key k :: q, List.cons_prefix_cons.mpr ⟨rfl, leading⟩, by simpa [found] using holds⟩
      | index i => exact ⟨[.index i], by simp, .inl rfl⟩
    | list xs =>
      cases s with
      | index i =>
        cases found : xs[i]? with
        | none => exact ⟨[.index i], by simp, .inl (by simp [found])⟩
        | some x =>
          simp only [nulledAt, found] at nulled
          obtain ⟨q, leading, holds⟩ := ih nulled
          exact ⟨.index i :: q, List.cons_prefix_cons.mpr ⟨rfl, leading⟩, by simpa [found] using holds⟩
      | key k => exact ⟨[.key k], by simp, .inl rfl⟩

/-! Writing at a path. -/

theorem lookup_cons_eq (k k' : String) (b : ResponseValue) (rest : List (String × ResponseValue)) :
    ((k, b) :: rest).lookup k' = if k' = k then some b else rest.lookup k' := by
  by_cases same : k' = k
  · subst same
    simp
  · have differs : (k' == k) = false := by simpa using same
    simp [List.lookup, differs, same]

theorem lookup_map_replace (fs : List (String × ResponseValue)) (k k' : String)
    (f : ResponseValue → ResponseValue) :
    (fs.map fun e => if e.1 == k then (k, f e.2) else e).lookup k' =
      if k' = k then (fs.lookup k).map f else fs.lookup k' := by
  simp only [beq_iff_eq]
  induction fs with
  | nil => by_cases same : k' = k <;> simp [same]
  | cons e rest ih =>
    obtain ⟨key, value⟩ := e
    by_cases hit : key = k
    · subst hit
      by_cases same : k' = key <;> simp [lookup_cons_eq, same, ih]
    · by_cases same : k' = k
      · subst same
        simp [lookup_cons_eq, hit, ih, Ne.symm hit]
      · simp [lookup_cons_eq, hit, same, ih]

theorem lookup_append_of_ne (fs : List (String × ResponseValue)) (k k' : String)
    (v : ResponseValue) (differs : k' ≠ k) : (fs ++ [(k, v)]).lookup k' = fs.lookup k' := by
  cases found : fs.lookup k' <;> simp [List.lookup_append, found, differs]

theorem lookup_eq_none_of_not_mem {fs : List (String × ResponseValue)} {k : String}
    (absent : k ∉ fs.map Prod.fst) : fs.lookup k = none := by
  rw [List.lookup_eq_none_iff]
  intro e member
  have differs : k ≠ e.1 := fun same => absent (List.mem_map.mpr ⟨e, member, same.symm⟩)
  simpa using differs

theorem lookup_of_mem {fs : List (String × ResponseValue)} {k : String} {w : ResponseValue}
    (distinct : (fs.map Prod.fst).Nodup) (member : (k, w) ∈ fs) : fs.lookup k = some w := by
  induction fs with
  | nil => cases member
  | cons e rest ih =>
    obtain ⟨k', w'⟩ := e
    simp only [List.map_cons, List.nodup_cons] at distinct
    rw [lookup_cons_eq]
    rcases List.mem_cons.mp member with same | member
    · obtain ⟨rfl, rfl⟩ := Prod.mk.inj same
      simp
    · have differs : k ≠ k' := fun same =>
        distinct.1 (same ▸ List.mem_map_of_mem (f := Prod.fst) member)
      simp [differs, ih distinct.2 member]

theorem lookup_append_cons_of_not_mem {acc more : List (String × ResponseValue)} {k : String}
    {w : ResponseValue} (absent : k ∉ acc.map Prod.fst) : (acc ++ (k, w) :: more).lookup k = some w := by
  rw [List.lookup_append, lookup_eq_none_of_not_mem absent]
  simp

theorem any_key_of_lookup {fs : List (String × ResponseValue)} {k : String} {w : ResponseValue}
    (found : fs.lookup k = some w) : fs.any (·.1 == k) = true := by
  have present : (fs.lookup k).isSome := by simp [found]
  obtain ⟨e, mem, same⟩ := List.lookup_isSome_iff.mp present
  exact List.any_eq_true.mpr ⟨e, mem, beq_iff_eq.mpr (beq_iff_eq.mp same).symm⟩

theorem getElem?_mapIdx_replace (xs : List ResponseValue) (i j : Nat)
    (f : ResponseValue → ResponseValue) :
    (xs.mapIdx fun j x => if j == i then f x else x)[j]? =
      if j = i then xs[i]?.map f else xs[j]? := by
  simp only [beq_iff_eq]
  by_cases same : j = i
  · subst same
    simp [List.getElem?_mapIdx]
  · simp only [List.getElem?_mapIdx, same, if_false]
    cases xs[j]? <;> simp

theorem at?_cons (t : ResponseValue) (s : PathSegment) (q : Path) :
    t.at? (s :: q) = (t.at? [s]).bind (·.at? q) := by
  cases t with
  | object fs =>
    cases s with
    | key k => simp only [at?_object_key]; cases fs.lookup k <;> simp
    | index i => rfl
  | list xs =>
    cases s with
    | index i => simp only [at?_list_index]; cases xs[i]? <;> simp
    | key k => rfl
  | null | leaf _ | pending => cases s <;> rfl

/-- A write below one step leaves the entries under every other step alone. -/
theorem at?_setAt_cons_of_ne {t v : ResponseValue} {s s' : PathSegment} {rest rest' : Path}
    (differs : s ≠ s') : (t.setAt (s :: rest) v).at? (s' :: rest') = t.at? (s' :: rest') := by
  cases t with
  | object fs =>
    cases s with
    | index i => cases rest <;> rfl
    | key k =>
      cases s' with
      | index j => cases rest <;> simp only [setAt] <;> (try split) <;> rfl
      | key k' =>
        have other : k' ≠ k := fun h => differs (by rw [h])
        cases rest with
        | nil =>
          simp only [setAt]
          split
          · rw [at?_object_key, at?_object_key, lookup_map_replace fs k k' fun _ => v, if_neg other]
          · rw [at?_object_key, at?_object_key, lookup_append_of_ne _ _ _ _ other]
        | cons r rs =>
          simp only [setAt]
          rw [at?_object_key, at?_object_key, lookup_map_replace fs k k' (·.setAt (r :: rs) v),
            if_neg other]
  | list xs =>
    cases s with
    | key k => cases rest <;> rfl
    | index i =>
      cases s' with
      | key k' => cases rest <;> simp only [setAt] <;> (try split) <;> rfl
      | index j =>
        have other : j ≠ i := fun h => differs (by rw [h])
        cases rest with
        | nil =>
          simp only [setAt]
          split
          · rw [at?_list_index, at?_list_index, List.getElem?_set_ne (Ne.symm other)]
          · rfl
        | cons r rs =>
          simp only [setAt]
          rw [at?_list_index, at?_list_index, getElem?_mapIdx_replace xs i j (·.setAt (r :: rs) v),
            if_neg other]
  | null | leaf _ | pending => cases s <;> cases rest <;> rfl

/-- A write two or more steps deep goes through the entry under its first step. -/
theorem at?_setAt_cons_cons {t v : ResponseValue} {s r : PathSegment} {rs q : Path} :
    (t.setAt (s :: r :: rs) v).at? (s :: q) =
      (t.at? [s]).bind fun w => (w.setAt (r :: rs) v).at? q := by
  cases t with
  | object fs =>
    cases s with
    | key k =>
      simp only [setAt]
      rw [at?_object_key, at?_object_key, lookup_map_replace fs k k (·.setAt (r :: rs) v), if_pos rfl]
      cases fs.lookup k <;> simp
    | index i => rfl
  | list xs =>
    cases s with
    | index i =>
      simp only [setAt]
      rw [at?_list_index, at?_list_index, getElem?_mapIdx_replace xs i i (·.setAt (r :: rs) v),
        if_pos rfl]
      cases xs[i]? <;> simp
    | key k => rfl
  | null | leaf _ | pending => cases s <;> rfl

/-- A one-step write where an entry stands puts the value there. -/
theorem at?_setAt_single {t v w : ResponseValue} {s : PathSegment} {q : Path}
    (present : t.at? [s] = some w) : (t.setAt [s] v).at? (s :: q) = v.at? q := by
  cases t with
  | object fs =>
    cases s with
    | key k =>
      have found : fs.lookup k = some w := by simpa using present
      simp only [setAt, any_key_of_lookup found, if_true]
      rw [at?_object_key, lookup_map_replace fs k k fun _ => v, if_pos rfl, found]
      rfl
    | index i => cases present
  | list xs =>
    cases s with
    | index i =>
      have found : xs[i]? = some w := by simpa using present
      have within : i < xs.length := (List.getElem?_eq_some_iff.mp found).1
      simp only [setAt, within, if_true]
      rw [at?_list_index, List.getElem?_set_self within]
      rfl
    | key k => cases present
  | null | leaf _ | pending => cases s <;> cases present

/-- Writing at a path changes no position that neither lies on the way to it nor below it. -/
theorem at?_setAt_of_apart {t v : ResponseValue} {p q : Path} (above : ¬ p <+: q)
    (below : ¬ q <+: p) : (t.setAt p v).at? q = t.at? q := by
  induction p generalizing t q with
  | nil => exact absurd List.nil_prefix above
  | cons s rest ih =>
    cases q with
    | nil => exact absurd List.nil_prefix below
    | cons s' rest' =>
      by_cases same : s = s'
      · subst same
        have apart : ¬ rest <+: rest' := fun h => above (List.cons_prefix_cons.mpr ⟨rfl, h⟩)
        have apart' : ¬ rest' <+: rest := fun h => below (List.cons_prefix_cons.mpr ⟨rfl, h⟩)
        cases rest with
        | nil => exact absurd List.nil_prefix apart
        | cons r rs =>
          rw [at?_setAt_cons_cons, at?_cons t s rest']
          cases t.at? [s] with
          | none => rfl
          | some w => exact ih apart apart'
      · exact at?_setAt_cons_of_ne same

theorem at?_append (t : ResponseValue) (p q : Path) : t.at? (p ++ q) = (t.at? p).bind (·.at? q) := by
  induction p generalizing t with
  | nil => simp
  | cons s rest ih =>
    rw [List.cons_append, at?_cons, at?_cons t s rest]
    cases t.at? [s] with
    | none => rfl
    | some w => exact ih w

/-- A write where an entry stands puts the value there, and below it reads the value. -/
theorem at?_setAt_append {t v w : ResponseValue} {p : Path} (present : t.at? p = some w)
    (nonempty : p ≠ []) (rel : Path) : (t.setAt p v).at? (p ++ rel) = v.at? rel := by
  induction p generalizing t w with
  | nil => exact absurd rfl nonempty
  | cons s rest ih =>
    cases rest with
    | nil => exact at?_setAt_single present
    | cons r rs =>
      rw [List.cons_append, at?_setAt_cons_cons]
      rw [at?_cons t s] at present
      cases above : t.at? [s] with
      | none => simp [above] at present
      | some u =>
        simp only [above, Option.bind_some] at present
        exact ih present (List.cons_ne_nil r rs)

/-! Nulled positions. -/

@[simp] theorem nulledAt_object_key (fs : List (String × ResponseValue)) (k : String)
    (rest : Path) : (ResponseValue.object fs).nulledAt (.key k :: rest) =
      ((fs.lookup k).map (·.nulledAt rest)).getD true := by
  simp only [nulledAt]
  cases fs.lookup k <;> rfl

@[simp] theorem nulledAt_list_index (xs : List ResponseValue) (i : Nat) (rest : Path) :
    (ResponseValue.list xs).nulledAt (.index i :: rest) = (xs[i]?.map (·.nulledAt rest)).getD true := by
  simp only [nulledAt]
  cases xs[i]? <;> rfl

@[simp] theorem nulledAt_nil (t : ResponseValue) : t.nulledAt [] = t.isNull := by
  cases t <;> rfl

theorem nulledAt_cons {t : ResponseValue} (filled : t ≠ .pending) (s : PathSegment) (q : Path) :
    t.nulledAt (s :: q) = ((t.at? [s]).map (·.nulledAt q)).getD true := by
  cases t with
  | pending => exact absurd rfl filled
  | object fs =>
    cases s with
    | key k => cases fs.lookup k <;> simp
    | index i => rfl
  | list xs =>
    cases s with
    | index i => cases xs[i]? <;> simp
    | key k => rfl
  | null | leaf _ => cases s <;> rfl

/-- Below a position that exists, nulled positions are those nulled in its value. -/
theorem nulledAt_append_of_at? {t w : ResponseValue} {p : Path} (present : t.at? p = some w)
    (q : Path) : t.nulledAt (p ++ q) = w.nulledAt q := by
  induction p generalizing t with
  | nil =>
    simp only [at?_nil, Option.some.injEq] at present
    subst present
    rfl
  | cons s rest ih =>
    have filled : t ≠ .pending := by
      rintro rfl
      simp at present
    rw [at?_cons] at present
    rw [List.cons_append, nulledAt_cons filled]
    cases above : t.at? [s] with
    | none => simp [above] at present
    | some u =>
      simp only [above, Option.bind_some] at present
      simpa using ih present

theorem nulledAt_eq_false_of_at?_cons {t u : ResponseValue} {q x : Path} {s : PathSegment}
    (present : t.at? (q ++ s :: x) = some u) : t.nulledAt q = false := by
  rw [at?_append] at present
  cases above : t.at? q with
  | none => simp [above] at present
  | some w =>
    rw [← List.append_nil q, nulledAt_append_of_at? above, nulledAt_nil]
    simp only [above, Option.bind_some] at present
    cases w <;> simp_all [ResponseValue.isNull]

theorem nulledAt_eq_false_of_pending {t : ResponseValue} {p : Path}
    (present : t.at? p = some .pending) (x : Path) : t.nulledAt (p ++ x) = false := by
  rw [nulledAt_append_of_at? present]
  simp

theorem at?_ne_pending_of_nulledAt {t : ResponseValue} {q : Path} (nulled : t.nulledAt q)
    (x : Path) : t.at? (q ++ x) ≠ some .pending := by
  intro placeholder
  cases x with
  | nil =>
    have unfilled := nulledAt_eq_false_of_pending (by simpa using placeholder) []
    simp_all
  | cons s x => simp [nulledAt_eq_false_of_at?_cons placeholder] at nulled

/-! Nulled positions after a write. -/

@[simp] theorem setAt_nil (t v : ResponseValue) : t.setAt [] v = t := by
  cases t <;> rfl

@[simp] theorem setAt_pending (p : Path) (v : ResponseValue) :
    ResponseValue.pending.setAt p v = .pending := by
  match p with
  | [] => rfl
  | [s] => cases s <;> rfl
  | s :: r :: rs => cases s <;> rfl

theorem setAt_ne_pending {t : ResponseValue} (filled : t ≠ .pending) (p : Path) (v : ResponseValue) :
    t.setAt p v ≠ .pending := by
  match p, t with
  | [], t => simpa using filled
  | [.key k], .object fs => simp only [setAt]; split <;> simp
  | [.index i], .list xs => simp only [setAt]; split <;> simp
  | .key k :: r :: rs, .object fs => simp [setAt]
  | .index i :: r :: rs, .list xs => simp [setAt]
  | [.key _], .list _ | [.index _], .object _ | .key _ :: _ :: _, .list _
  | .index _ :: _ :: _, .object _ => simp [setAt]
  | _ :: _, .null | _ :: _, .leaf _ => simp [setAt]
  | _ :: _, .pending => exact absurd rfl filled

/-- Writing at a path leaves nulled every position apart from it as it was. -/
theorem nulledAt_setAt_of_apart {t v : ResponseValue} {p q : Path} (above : ¬ p <+: q)
    (below : ¬ q <+: p) : (t.setAt p v).nulledAt q = t.nulledAt q := by
  induction p generalizing t q with
  | nil => exact absurd List.nil_prefix above
  | cons s rest ih =>
    cases q with
    | nil => exact absurd List.nil_prefix below
    | cons s' rest' =>
      by_cases filled : t = .pending
      · subst filled
        rw [setAt_pending]
      rw [nulledAt_cons (setAt_ne_pending filled _ _), nulledAt_cons filled]
      by_cases same : s = s'
      · subst same
        have apart : ¬ rest <+: rest' := fun h => above (List.cons_prefix_cons.mpr ⟨rfl, h⟩)
        have apart' : ¬ rest' <+: rest := fun h => below (List.cons_prefix_cons.mpr ⟨rfl, h⟩)
        cases rest with
        | nil => exact absurd List.nil_prefix apart
        | cons r rs =>
          rw [at?_setAt_cons_cons]
          cases t.at? [s] with
          | none => rfl
          | some w => simpa using ih apart apart'
      · rw [at?_setAt_cons_of_ne same]

/-- Writing where a placeholder stands leaves every nulled position nulled. -/
theorem nulledAt_setAt_of_pending {t v : ResponseValue} {p q : Path}
    (placeholder : t.at? p = some .pending) (nulled : t.nulledAt q) :
    (t.setAt p v).nulledAt q := by
  by_cases above : p <+: q
  · obtain ⟨x, rfl⟩ := above
    simp [nulledAt_eq_false_of_pending placeholder x] at nulled
  by_cases below : q <+: p
  · obtain ⟨x, rfl⟩ := below
    cases x with
    | nil =>
      rw [List.append_nil] at above
      exact absurd (List.prefix_refl q) above
    | cons s x => simp [nulledAt_eq_false_of_at?_cons placeholder] at nulled
  · rw [nulledAt_setAt_of_apart above below]
    exact nulled

/-- Writing a null where an entry stands leaves every nulled position nulled, and nulls every
position at or below it. -/
theorem nulledAt_setAt_null {t w : ResponseValue} {b q : Path} (present : t.at? b = some w)
    (nonempty : b ≠ []) (nulled : t.nulledAt q ∨ b <+: q) : (t.setAt b .null).nulledAt q := by
  by_cases above : b <+: q
  · obtain ⟨x, rfl⟩ := above
    have written := at?_setAt_append present nonempty (v := .null) []
    rw [List.append_nil, at?_nil] at written
    rw [nulledAt_append_of_at? written]
    simp
  rcases nulled with nulled | reaches
  · by_cases below : q <+: b
    · obtain ⟨x, same⟩ := below
      cases x with
      | nil => exact absurd (by simp [← same]) above
      | cons s' x =>
        rw [← same] at present
        simp [nulledAt_eq_false_of_at?_cons present] at nulled
    · rw [nulledAt_setAt_of_apart above below]
      exact nulled
  · exact absurd reaches above

theorem nulledAt_setAt_append {t v w : ResponseValue} {p : Path} (present : t.at? p = some w)
    (nonempty : p ≠ []) (rel : Path) : (t.setAt p v).nulledAt (p ++ rel) = v.nulledAt rel := by
  have written := at?_setAt_append present nonempty (v := v) []
  rw [List.append_nil, at?_nil] at written
  exact nulledAt_append_of_at? written rel

/-! Placeholders and the positions around them. -/

theorem at?_below_pending {t : ResponseValue} {p : Path} (placeholder : t.at? p = some .pending)
    (s : PathSegment) (x : Path) : t.at? (p ++ s :: x) = none := by
  rw [at?_append, placeholder]
  simp

theorem apart_of_nulledAt {t : ResponseValue} {m p : Path} (nulled : t.nulledAt m)
    (placeholder : t.at? p = some .pending) : ¬ m <+: p ∧ ¬ p <+: m := by
  constructor
  · rintro ⟨x, rfl⟩
    exact at?_ne_pending_of_nulledAt nulled x placeholder
  · rintro ⟨x, rfl⟩
    simp [nulledAt_eq_false_of_pending placeholder x] at nulled

theorem apart_of_pending {t : ResponseValue} {p q : Path} (first : t.at? p = some .pending)
    (second : t.at? q = some .pending) (differs : p ≠ q) : ¬ p <+: q ∧ ¬ q <+: p := by
  constructor
  · rintro ⟨x, rfl⟩
    cases x with
    | nil => simp at differs
    | cons s x => simp [at?_below_pending first] at second
  · rintro ⟨x, rfl⟩
    cases x with
    | nil => simp at differs
    | cons s x => simp [at?_below_pending second] at first

/-! Rewriting the value at a path. -/

theorem mem_of_lookup {fs : List (String × ResponseValue)} {k : String} {w : ResponseValue}
    (found : fs.lookup k = some w) : (k, w) ∈ fs := by
  obtain ⟨before, after, rfl, -⟩ := List.lookup_eq_some_iff.mp found
  simp

theorem setAt_ne_null {t : ResponseValue} (filled : t ≠ .null) (p : Path) (v : ResponseValue) :
    t.setAt p v ≠ .null := by
  match p, t with
  | [], t => simpa using filled
  | [.key k], .object fs => simp only [setAt]; split <;> simp
  | [.index i], .list xs => simp only [setAt]; split <;> simp
  | .key k :: r :: rs, .object fs => simp [setAt]
  | .index i :: r :: rs, .list xs => simp [setAt]
  | [.key _], .list _ | [.index _], .object _ | .key _ :: _ :: _, .list _
  | .index _ :: _ :: _, .object _ => simp [setAt]
  | _ :: _, .pending | _ :: _, .leaf _ => simp [setAt]
  | _ :: _, .null => exact absurd rfl filled

/-- The tree with the value at a path replaced: the new value itself at the root, a write below
it elsewhere. Unlike `setAt`, which leaves the root alone, it treats every position alike. -/
def replaceAt (t : ResponseValue) : Path → ResponseValue → ResponseValue
  | [], v => v
  | s :: rest, v => t.setAt (s :: rest) v

@[simp] theorem replaceAt_nil (t v : ResponseValue) : t.replaceAt [] v = v := rfl

theorem setAt_eq_replaceAt (t : ResponseValue) {p : Path} (nonempty : p ≠ []) (v : ResponseValue) :
    t.setAt p v = t.replaceAt p v := by
  cases p with
  | nil => exact absurd rfl nonempty
  | cons s rest => rfl

theorem replaceAt_object_key {fs : List (String × ResponseValue)} {k : String} {w : ResponseValue}
    (found : fs.lookup k = some w) (rest : Path) (v : ResponseValue) :
    (ResponseValue.object fs).replaceAt (.key k :: rest) v =
      .object (fs.map fun e => if e.1 == k then (k, e.2.replaceAt rest v) else e) := by
  cases rest with
  | nil => simp [replaceAt, setAt, any_key_of_lookup found]
  | cons r rs => rfl

/-- Rewriting under an index the list has rewrites that item. -/
theorem replaceAt_list_index {xs : List ResponseValue} {i : Nat} (within : i < xs.length)
    (rest : Path) (v : ResponseValue) :
    (ResponseValue.list xs).replaceAt (.index i :: rest) v =
      .list (xs.mapIdx fun j x => if j == i then x.replaceAt rest v else x) := by
  cases rest with
  | nil =>
    simp only [replaceAt, setAt, within, if_true, list.injEq]
    apply List.ext_getElem?
    intro j
    rw [getElem?_mapIdx_replace xs i j fun _ => v]
    by_cases same : j = i
    · subst same
      simp [within]
    · simp [same, List.getElem?_set_ne (Ne.symm same)]
  | cons r rs => rfl

theorem replaceAt_ne_null {t : ResponseValue} (filled : t ≠ .null) {s : PathSegment} {rest : Path}
    (v : ResponseValue) : t.replaceAt (s :: rest) v ≠ .null :=
  setAt_ne_null filled _ v

theorem replaceAt_ne_pending {t : ResponseValue} (filled : t ≠ .pending) {s : PathSegment}
    {rest : Path} (v : ResponseValue) : t.replaceAt (s :: rest) v ≠ .pending :=
  setAt_ne_pending filled _ v

end GraphWeave.ResponseValue
