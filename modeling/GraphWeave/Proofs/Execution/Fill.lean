import GraphWeave.Proofs.Execution.TypedData

/-! Filling the placeholders of a response tree.

While batches are still to run, the tree holds a placeholder for each queued field. `fill` reads
the tree as the response it stands for once each placeholder holds what its field comes to
(`res`): a value, or a null on its way up to the boundary that takes it. Positions are filled
left to right, as completion runs them; a null on its way up ends the object or list it passes
through, and the position that is its boundary (`absorb`) becomes null. Placeholders that a
null passing up cut off are never read. -/

namespace GraphWeave

/-- A position once the placeholders below it are filled: a value, or a null on its way up to
the boundary that takes it. -/
inductive Filled where
  | value (v : ResponseValue)
  | escape (boundary : Path)

/-- A filled object or list, from its filled entries or the null passing up through it. -/
def Filled.ofSum {α : Type} (mk : α → ResponseValue) : α ⊕ Path → Filled
  | .inl a => .value (mk a)
  | .inr b => .escape b

namespace ResponseValue

/-- A null on its way up stops at the position that is its boundary, which becomes null. -/
def absorb (q : Path) : Option Filled → Option Filled
  | some (.escape b) => if b = q then some (.value .null) else some (.escape b)
  | r => r

mutual

/-- The position `q` of a tree with its placeholders filled from `res`; `none` when a
placeholder read has nothing to fill it. -/
def fill (res : Path → Option Filled) : ResponseValue → Path → Option Filled
  | .pending, q => absorb q (res q)
  | .object fs, q => absorb q ((fillEntries res q fs).map (Filled.ofSum .object))
  | .list xs, q => absorb q ((fillItems res q 0 xs).map (Filled.ofSum .list))
  | .null, _ => some (.value .null)
  | .leaf j, _ => some (.value (.leaf j))

/-- The entries of an object at `q`, filled in order until a null passes up through one. -/
def fillEntries (res : Path → Option Filled) (q : Path) :
    List (String × ResponseValue) → Option (List (String × ResponseValue) ⊕ Path)
  | [] => some (.inl [])
  | (k, v) :: rest =>
    match fill res v (q ++ [.key k]) with
    | none => none
    | some (.escape b) => some (.inr b)
    | some (.value w) => (fillEntries res q rest).map (Sum.map ((k, w) :: ·) id)

/-- The items of a list at `q` from index `i` on, filled in order until a null passes up
through one. -/
def fillItems (res : Path → Option Filled) (q : Path) (i : Nat) :
    List ResponseValue → Option (List ResponseValue ⊕ Path)
  | [] => some (.inl [])
  | v :: rest =>
    match fill res v (q ++ [.index i]) with
    | none => none
    | some (.escape b) => some (.inr b)
    | some (.value w) => (fillItems res q (i + 1) rest).map (Sum.map (w :: ·) id)

end

section Absorb

variable {q b : Path} {v : ResponseValue}

@[simp] theorem absorb_value : absorb q (some (.value v)) = some (.value v) := rfl

@[simp] theorem absorb_none : absorb q none = none := rfl

@[simp] theorem absorb_self : absorb q (some (.escape q)) = some (.value .null) := by
  simp [absorb]

theorem absorb_ne (away : b ≠ q) : absorb q (some (.escape b)) = some (.escape b) := by
  simp [absorb, away]

@[simp] theorem absorb_absorb (r : Option Filled) : absorb q (absorb q r) = absorb q r := by
  rcases r with _ | _ | b
  · rfl
  · rfl
  · by_cases same : b = q
    · subst same
      simp
    · simp [absorb_ne same]

theorem absorb_escape (b q : Path) :
    (b = q ∧ absorb q (some (.escape b)) = some (.value .null)) ∨
      (b ≠ q ∧ absorb q (some (.escape b)) = some (.escape b)) := by
  by_cases same : b = q
  · subst same
    exact .inl ⟨rfl, absorb_self⟩
  · exact .inr ⟨same, absorb_ne same⟩

end Absorb

section Equations

variable (res : Path → Option Filled) (q : Path)

@[simp] theorem fill_null : fill res .null q = some (.value .null) := by
  rw [fill]

@[simp] theorem fill_leaf (j : Json) : fill res (.leaf j) q = some (.value (.leaf j)) := by
  rw [fill]

@[simp] theorem fill_pending : fill res .pending q = absorb q (res q) := by
  rw [fill]

theorem fill_object (fs : List (String × ResponseValue)) :
    fill res (.object fs) q = absorb q ((fillEntries res q fs).map (Filled.ofSum .object)) := by
  rw [fill]

theorem fill_list (xs : List ResponseValue) :
    fill res (.list xs) q = absorb q ((fillItems res q 0 xs).map (Filled.ofSum .list)) := by
  rw [fill]

@[simp] theorem absorb_fill (v : ResponseValue) : absorb q (fill res v q) = fill res v q := by
  cases v <;> simp [fill]

end Equations

/-! Filling entries and items one after another. -/

section Sequence

variable {res : Path → Option Filled} {q : Path}

theorem fillEntries_append {xs xs' : List (String × ResponseValue)}
    (filled : fillEntries res q xs = some (.inl xs')) (ys : List (String × ResponseValue)) :
    fillEntries res q (xs ++ ys) = (fillEntries res q ys).map (Sum.map (xs' ++ ·) id) := by
  induction xs generalizing xs' with
  | nil =>
    cases filled
    rw [List.nil_append]
    cases fillEntries res q ys with
    | none => rfl
    | some r => cases r <;> rfl
  | cons e rest ih =>
    obtain ⟨k, v⟩ := e
    simp only [fillEntries] at filled
    cases entry : fill res v (q ++ [.key k]) with
    | none => simp [entry] at filled
    | some f =>
      cases f with
      | escape b => simp [entry] at filled
      | value w =>
        simp only [entry] at filled
        obtain ⟨r, found, same⟩ := Option.map_eq_some_iff.mp filled
        cases r with
        | inr b => cases same
        | inl rest' =>
          simp only [Sum.map_inl, Sum.inl.injEq] at same
          subst same
          simp only [List.cons_append, fillEntries, entry, ih found]
          cases fillEntries res q ys with
          | none => rfl
          | some r => cases r <;> rfl

theorem fillEntries_snoc {acc acc₀ : List (String × ResponseValue)} {k : String}
    {v w : ResponseValue} (filled : fillEntries res q acc = some (.inl acc₀))
    (entry : fill res v (q ++ [.key k]) = some (.value w)) :
    fillEntries res q (acc ++ [(k, v)]) = some (.inl (acc₀ ++ [(k, w)])) := by
  rw [fillEntries_append filled]
  simp [fillEntries, entry]

theorem fillEntries_escape {acc acc₀ more : List (String × ResponseValue)} {k : String}
    {v : ResponseValue} {b : Path} (filled : fillEntries res q acc = some (.inl acc₀))
    (entry : fill res v (q ++ [.key k]) = some (.escape b)) :
    fillEntries res q (acc ++ (k, v) :: more) = some (.inr b) := by
  rw [fillEntries_append filled]
  simp [fillEntries, entry]

theorem fillItems_append {i : Nat} {xs xs' : List ResponseValue}
    (filled : fillItems res q i xs = some (.inl xs')) (ys : List ResponseValue) :
    fillItems res q i (xs ++ ys) = (fillItems res q (i + xs.length) ys).map (Sum.map (xs' ++ ·) id) := by
  induction xs generalizing i xs' with
  | nil =>
    cases filled
    rw [List.nil_append, List.length_nil, Nat.add_zero]
    cases fillItems res q i ys with
    | none => rfl
    | some r => cases r <;> rfl
  | cons v rest ih =>
    simp only [fillItems] at filled
    cases entry : fill res v (q ++ [.index i]) with
    | none => simp [entry] at filled
    | some f =>
      cases f with
      | escape b => simp [entry] at filled
      | value w =>
        simp only [entry] at filled
        obtain ⟨r, found, same⟩ := Option.map_eq_some_iff.mp filled
        cases r with
        | inr b => cases same
        | inl rest' =>
          simp only [Sum.map_inl, Sum.inl.injEq] at same
          subst same
          simp only [List.cons_append, fillItems, entry, ih found, List.length_cons,
            Nat.add_assoc, Nat.add_comm 1]
          cases fillItems res q (i + (rest.length + 1)) ys with
          | none => rfl
          | some r => cases r <;> rfl

theorem fillItems_snoc {acc acc₀ : List ResponseValue} {v w : ResponseValue}
    (filled : fillItems res q 0 acc = some (.inl acc₀))
    (item : fill res v (q ++ [.index acc.length]) = some (.value w)) :
    fillItems res q 0 (acc ++ [v]) = some (.inl (acc₀ ++ [w])) := by
  rw [fillItems_append filled]
  simp [fillItems, item]

theorem fillItems_escape {acc more : List ResponseValue} {acc₀ : List ResponseValue}
    {v : ResponseValue} {b : Path} (filled : fillItems res q 0 acc = some (.inl acc₀))
    (item : fill res v (q ++ [.index acc.length]) = some (.escape b)) :
    fillItems res q 0 (acc ++ v :: more) = some (.inr b) := by
  rw [fillItems_append filled]
  simp [fillItems, item]

end Sequence


/-! Trees whose objects have distinct keys, where a key reads the only entry it has. -/

/-- Every object of the tree has distinct keys. -/
def KeysDistinct (t : ResponseValue) : Prop :=
  ∀ x fs, t.at? x = some (.object fs) → (fs.map Prod.fst).Nodup

section KeysDistinct

variable {fs : List (String × ResponseValue)} {xs : List ResponseValue} {k : String}
  {e : ResponseValue}

theorem KeysDistinct.nodup (distinct : (ResponseValue.object fs).KeysDistinct) :
    (fs.map Prod.fst).Nodup :=
  distinct [] fs (at?_nil _)

theorem KeysDistinct.at?_entry (distinct : (ResponseValue.object fs).KeysDistinct)
    (member : (k, e) ∈ fs) (x : Path) : e.at? x = (ResponseValue.object fs).at? (.key k :: x) := by
  simp [lookup_of_mem distinct.nodup member]

theorem KeysDistinct.entry (distinct : (ResponseValue.object fs).KeysDistinct)
    (member : (k, e) ∈ fs) : e.KeysDistinct := fun x fs' found =>
  distinct (.key k :: x) fs' (by rw [← distinct.at?_entry member]; exact found)

theorem KeysDistinct.item {i : Nat} (distinct : (ResponseValue.list xs).KeysDistinct)
    (found : xs[i]? = some e) : e.KeysDistinct := fun x fs' below =>
  distinct (.index i :: x) fs' (by simp [found, below])

theorem keysDistinct_object (distinct : (fs.map Prod.fst).Nodup)
    (entries : ∀ e ∈ fs, e.2.KeysDistinct) : (ResponseValue.object fs).KeysDistinct := by
  intro x fs' found
  cases x with
  | nil =>
    cases found
    exact distinct
  | cons s x =>
    cases s with
    | index i => simp [at?] at found
    | key k =>
      obtain ⟨w, looked, below⟩ := Option.bind_eq_some_iff.mp (by simpa using found)
      exact entries _ (mem_of_lookup looked) x fs' below

theorem keysDistinct_list (items : ∀ x ∈ xs, x.KeysDistinct) :
    (ResponseValue.list xs).KeysDistinct := by
  intro x fs' found
  cases x with
  | nil => cases found
  | cons s x =>
    cases s with
    | key k => simp [at?] at found
    | index i =>
      obtain ⟨w, looked, below⟩ := Option.bind_eq_some_iff.mp (by simpa using found)
      exact items w (List.mem_of_getElem? looked) x fs' below

end KeysDistinct

/-! Filling reads the placeholders of the tree only: a tree with none fills to itself, and two
ways of filling that agree on its placeholders fill it alike. -/

section Reads

variable {res res' : Path → Option Filled}

mutual

theorem fill_settled : ∀ (v : ResponseValue) (q : Path), v.KeysDistinct →
    (∀ x, v.at? x ≠ some .pending) → fill res v q = some (.value v)
  | .null, q, _, _ => fill_null res q
  | .leaf j, q, _, _ => fill_leaf res q j
  | .pending, _, _, settled => absurd (at?_nil _) (settled [])
  | .object fs, q, distinct, settled => by
    rw [fill_object, fillEntries_settled q fs fun e member =>
      ⟨distinct.entry member, fun x => distinct.at?_entry member x ▸ settled _⟩]
    rfl
  | .list xs, q, distinct, settled => by
    rw [fill_list, fillItems_settled q 0 xs fun x member => ?_]
    · rfl
    obtain ⟨i, found⟩ := List.mem_iff_getElem?.mp member
    exact ⟨distinct.item found, fun y => by simpa [found] using settled (.index i :: y)⟩

theorem fillEntries_settled (q : Path) : ∀ fs : List (String × ResponseValue),
    (∀ e ∈ fs, e.2.KeysDistinct ∧ ∀ x, e.2.at? x ≠ some .pending) →
      fillEntries res q fs = some (.inl fs)
  | [], _ => rfl
  | (k, v) :: rest, each => by
    have head := each (k, v) List.mem_cons_self
    simp only [fillEntries, fill_settled v _ head.1 head.2,
      fillEntries_settled q rest fun e member => each e (List.mem_cons_of_mem _ member)]
    rfl

theorem fillItems_settled (q : Path) : ∀ (i : Nat) (xs : List ResponseValue),
    (∀ x ∈ xs, x.KeysDistinct ∧ ∀ y, x.at? y ≠ some .pending) →
      fillItems res q i xs = some (.inl xs)
  | _, [], _ => rfl
  | i, v :: rest, each => by
    have head := each v List.mem_cons_self
    simp only [fillItems, fill_settled v _ head.1 head.2,
      fillItems_settled q (i + 1) rest fun x member => each x (List.mem_cons_of_mem _ member)]
    rfl

end

mutual

theorem fill_congr : ∀ (v : ResponseValue) (q : Path), v.KeysDistinct →
    (∀ x, v.at? x = some .pending → res (q ++ x) = res' (q ++ x)) → fill res v q = fill res' v q
  | .null, q, _, _ => by rw [fill_null, fill_null]
  | .leaf j, q, _, _ => by rw [fill_leaf, fill_leaf]
  | .pending, q, _, same => by
    rw [fill_pending, fill_pending, ← List.append_nil q, same [] (at?_nil _)]
  | .object fs, q, distinct, same => by
    rw [fill_object, fill_object, fillEntries_congr q fs fun e member =>
      ⟨distinct.entry member, fun x pending => by
        simpa using same _ (distinct.at?_entry member x ▸ pending)⟩]
  | .list xs, q, distinct, same => by
    rw [fill_list, fill_list, fillItems_congr q 0 xs fun j x found =>
      ⟨distinct.item found, fun y pending => by
        simpa using same (.index j :: y) (by simp [found, pending])⟩]

theorem fillEntries_congr (q : Path) : ∀ fs : List (String × ResponseValue),
    (∀ e ∈ fs, e.2.KeysDistinct ∧
      ∀ x, e.2.at? x = some .pending → res (q ++ .key e.1 :: x) = res' (q ++ .key e.1 :: x)) →
      fillEntries res q fs = fillEntries res' q fs
  | [], _ => rfl
  | (k, v) :: rest, each => by
    have head := each (k, v) List.mem_cons_self
    simp only [fillEntries, fill_congr v (q ++ [.key k]) head.1 fun x pending => by
        simpa using head.2 x pending,
      fillEntries_congr q rest fun e member => each e (List.mem_cons_of_mem _ member)]

theorem fillItems_congr (q : Path) : ∀ (i : Nat) (xs : List ResponseValue),
    (∀ j x, xs[j]? = some x → x.KeysDistinct ∧
      ∀ y, x.at? y = some .pending → res (q ++ .index (i + j) :: y) = res' (q ++ .index (i + j) :: y)) →
      fillItems res q i xs = fillItems res' q i xs
  | _, [], _ => rfl
  | i, v :: rest, each => by
    have head := each 0 v rfl
    simp only [fillItems, fill_congr v (q ++ [.index i]) head.1 fun y pending => by
        simpa using head.2 y pending,
      fillItems_congr q (i + 1) rest fun j x found => by
        simpa [Nat.add_assoc, Nat.add_comm 1] using each (j + 1) x found]

end

end Reads

/-! Rewriting a subtree by one that fills to the same result, where the first gives one, keeps
what the tree fills to. -/

section Replace

variable {res res' : Path → Option Filled}

theorem absorb_map_mono {α : Type} {q : Path} {a b : Option (α ⊕ Path)} {mk : α → ResponseValue}
    (mono : ∀ r, a = some r → b = some r) :
    ∀ o, absorb q (a.map (Filled.ofSum mk)) = some o → absorb q (b.map (Filled.ofSum mk)) = some o := by
  intro o filled
  cases a with
  | none => simp at filled
  | some r => rwa [mono r rfl]

theorem fillEntries_mono {q : Path} : ∀ {fs fs' : List (String × ResponseValue)},
    List.Forall₂ (fun e e' => e.1 = e'.1 ∧
      ∀ o, fill res e.2 (q ++ [.key e.1]) = some o → fill res' e'.2 (q ++ [.key e.1]) = some o) fs fs' →
    ∀ r, fillEntries res q fs = some r → fillEntries res' q fs' = some r
  | [], [], .nil, _, filled => filled
  | (k, v) :: rest, (k', v') :: rest', .cons ⟨same, entry⟩ tail, r, filled => by
    obtain rfl : k = k' := same
    simp only [fillEntries] at filled ⊢
    cases first : fill res v (q ++ [.key k]) with
    | none => simp [first] at filled
    | some f =>
      rw [entry f first]
      cases f with
      | escape b => simpa [first] using filled
      | value w =>
        simp only [first] at filled ⊢
        obtain ⟨r', found, rfl⟩ := Option.map_eq_some_iff.mp filled
        rw [fillEntries_mono tail r' found]
        rfl

theorem fillItems_mono {q : Path} : ∀ {i : Nat} {xs xs' : List ResponseValue},
    xs'.length = xs.length →
    (∀ j x x', xs[j]? = some x → xs'[j]? = some x' →
      ∀ o, fill res x (q ++ [.index (i + j)]) = some o → fill res' x' (q ++ [.index (i + j)]) = some o) →
    ∀ r, fillItems res q i xs = some r → fillItems res' q i xs' = some r
  | _, [], [], _, _, _, filled => filled
  | i, v :: rest, v' :: rest', same, each, r, filled => by
    simp only [fillItems] at filled ⊢
    cases first : fill res v (q ++ [.index i]) with
    | none => simp [first] at filled
    | some f =>
      have head := each 0 v v' rfl rfl
      rw [Nat.add_zero] at head
      rw [head f first]
      cases f with
      | escape b => simpa [first] using filled
      | value w =>
        simp only [first] at filled ⊢
        obtain ⟨r', found, rfl⟩ := Option.map_eq_some_iff.mp filled
        have tail := fillItems_mono (i := i + 1) (by simpa using same)
          (fun j x x' found found' => by
            simpa [Nat.add_assoc, Nat.add_comm 1] using each (j + 1) x x' found found') r' found
        rw [tail]
        rfl

/-- Rewriting the subtree at a path by one that fills to the same result where the old one gives
one, with the placeholders apart from the subtree filled alike, fills the tree to the same result
where the old tree gives one. -/
theorem fill_replaceAt {P : Path} {u v : ResponseValue}
    (within : ∀ o, fill res u P = some o → fill res' v P = some o)
    (outside : ∀ x, ¬ P <+: x → res x = res' x) :
    ∀ (p : Path) (t : ResponseValue) (q : Path), q ++ p = P → t.KeysDistinct → t.at? p = some u →
      ∀ o, fill res t q = some o → fill res' (t.replaceAt p v) q = some o := by
  intro p
  induction p with
  | nil =>
    intro t q target _ found
    obtain rfl : t = u := by simpa using found
    simpa [← target] using within
  | cons s rest ih =>
    intro t q target distinct found
    have apart : ∀ s', s' ≠ s → ∀ w : ResponseValue, w.KeysDistinct →
        fill res w (q ++ [s']) = fill res' w (q ++ [s']) := by
      intro s' differs w distinct'
      refine fill_congr w _ distinct' fun x _ => outside _ fun above => differs ?_
      rw [← target, List.append_assoc, List.singleton_append, List.prefix_append_right_inj,
        List.cons_prefix_cons] at above
      exact above.1.symm
    cases t with
    | object fs =>
      cases s with
      | index i => simp [at?] at found
      | key k =>
        obtain ⟨e, looked, below⟩ := Option.bind_eq_some_iff.mp (by simpa using found)
        rw [replaceAt_object_key looked, fill_object, fill_object]
        refine absorb_map_mono (fillEntries_mono ?_)
        refine List.forall₂_map_right_iff.mpr (List.forall₂_same.mpr fun entry member => ?_)
        obtain ⟨k', e'⟩ := entry
        by_cases same : k' = k
        · subst same
          obtain rfl : e' = e :=
            Option.some.inj ((lookup_of_mem distinct.nodup member).symm.trans looked)
          refine ⟨by simp, ?_⟩
          simp only [beq_self_eq_true, if_true]
          exact ih e' (q ++ [.key k']) (by simpa using target) (distinct.entry member) below
        · have differs : (k' == k) = false := by simpa using same
          refine ⟨by simp [differs], fun o filled => ?_⟩
          simp only [differs, Bool.false_eq_true, if_false]
          rwa [← apart (.key k') (by simpa using same) e' (distinct.entry member)]
    | list xs =>
      cases s with
      | key k => simp [at?] at found
      | index i =>
        obtain ⟨e, looked, below⟩ := Option.bind_eq_some_iff.mp (by simpa using found)
        rw [replaceAt_list_index (List.getElem?_eq_some_iff.mp looked).1, fill_list, fill_list]
        refine absorb_map_mono (fillItems_mono (by simp) fun j x x' item item' => ?_)
        rw [getElem?_mapIdx_replace] at item'
        rw [Nat.zero_add]
        by_cases same : j = i
        · subst same
          simp only [if_true, looked, Option.map_some, Option.some.injEq] at item item'
          subst item item'
          exact ih e (q ++ [.index j]) (by simpa using target) (distinct.item looked) below
        · simp only [same, if_false, item, Option.some.injEq] at item'
          subst item'
          intro o filled
          rwa [← apart (.index j) (by simpa using same) x (distinct.item item)]
    | null | leaf _ | pending => simp at found

end Replace

/-! Where nulls passing up come from. -/

section Escapes

variable {res : Path → Option Filled} {q b : Path}

theorem absorb_eq_escape {r : Option Filled} (escaped : absorb q r = some (.escape b)) :
    r = some (.escape b) ∧ b ≠ q := by
  rcases r with _ | _ | b'
  · cases escaped
  · cases escaped
  · rcases absorb_escape b' q with ⟨_, absorbed⟩ | ⟨away, absorbed⟩
    · rw [absorbed] at escaped
      cases escaped
    · rw [absorbed] at escaped
      cases escaped
      exact ⟨rfl, away⟩

theorem absorb_map_eq_some {α : Type} {a : Option (α ⊕ Path)} {mk : α → ResponseValue} {o : Filled}
    (filled : absorb q (a.map (Filled.ofSum mk)) = some o) :
    ∃ r, a = some r ∧ absorb q (some (Filled.ofSum mk r)) = some o := by
  cases a with
  | none => cases filled
  | some r => exact ⟨r, rfl, filled⟩

theorem fillEntries_eq_inr : ∀ {fs : List (String × ResponseValue)},
    fillEntries res q fs = some (.inr b) → ∃ e ∈ fs, fill res e.2 (q ++ [.key e.1]) = some (.escape b)
  | [], filled => by cases filled
  | (k, v) :: rest, filled => by
    simp only [fillEntries] at filled
    cases first : fill res v (q ++ [.key k]) with
    | none => simp [first] at filled
    | some f =>
      cases f with
      | escape b' =>
        simp only [first, Option.some.injEq, Sum.inr.injEq] at filled
        exact ⟨(k, v), List.mem_cons_self, filled ▸ first⟩
      | value w =>
        simp only [first] at filled
        obtain ⟨r, found, same⟩ := Option.map_eq_some_iff.mp filled
        cases r with
        | inl _ => cases same
        | inr b' =>
          simp only [Sum.map_inr, id, Sum.inr.injEq] at same
          rw [same] at found
          obtain ⟨e, member, escaped⟩ := fillEntries_eq_inr found
          exact ⟨e, List.mem_cons_of_mem _ member, escaped⟩

theorem fillItems_eq_inr : ∀ {i : Nat} {xs : List ResponseValue},
    fillItems res q i xs = some (.inr b) →
      ∃ j x, xs[j]? = some x ∧ fill res x (q ++ [.index (i + j)]) = some (.escape b)
  | _, [], filled => by cases filled
  | i, v :: rest, filled => by
    simp only [fillItems] at filled
    cases first : fill res v (q ++ [.index i]) with
    | none => simp [first] at filled
    | some f =>
      cases f with
      | escape b' =>
        simp only [first, Option.some.injEq, Sum.inr.injEq] at filled
        exact ⟨0, v, rfl, by simpa [filled] using first⟩
      | value w =>
        simp only [first] at filled
        obtain ⟨r, found, same⟩ := Option.map_eq_some_iff.mp filled
        cases r with
        | inl _ => cases same
        | inr b' =>
          simp only [Sum.map_inr, id, Sum.inr.injEq] at same
          rw [same] at found
          obtain ⟨j, x, item, escaped⟩ := fillItems_eq_inr found
          exact ⟨j + 1, x, item, by simpa [Nat.add_assoc, Nat.add_comm 1] using escaped⟩

/-- Entries one of which fills to nothing or to a null passing up to `B`, and none of which passes
a null up to anywhere else, fill to nothing or to that null. -/
theorem fillEntries_toward : ∀ {fs : List (String × ResponseValue)},
    (∃ e ∈ fs, ∀ o, fill res e.2 (q ++ [.key e.1]) = some o → o = .escape b) →
    (∀ e ∈ fs, ∀ b', fill res e.2 (q ++ [.key e.1]) = some (.escape b') → b' = b) →
    ∀ r, fillEntries res q fs = some r → r = .inr b
  | [], ⟨_, member, _⟩, _, _, _ => by cases member
  | (k, v) :: rest, ⟨e, member, toward⟩, only, r, filled => by
    simp only [fillEntries] at filled
    cases first : fill res v (q ++ [.key k]) with
    | none => simp [first] at filled
    | some f =>
      cases f with
      | escape b' =>
        simp only [first, Option.some.injEq] at filled
        rw [← filled, only (k, v) List.mem_cons_self b' first]
      | value w =>
        simp only [first] at filled
        obtain ⟨r', found, rfl⟩ := Option.map_eq_some_iff.mp filled
        rcases List.mem_cons.mp member with rfl | member
        · cases toward _ first
        · have rest' := fillEntries_toward ⟨e, member, toward⟩
            (fun e' member' => only e' (List.mem_cons_of_mem _ member')) r' found
          rw [rest']
          rfl

/-- The same for items from index `i` on. -/
theorem fillItems_toward : ∀ {i : Nat} {xs : List ResponseValue},
    (∃ j x, xs[j]? = some x ∧ ∀ o, fill res x (q ++ [.index (i + j)]) = some o → o = .escape b) →
    (∀ j x, xs[j]? = some x →
      ∀ b', fill res x (q ++ [.index (i + j)]) = some (.escape b') → b' = b) →
    ∀ r, fillItems res q i xs = some r → r = .inr b
  | _, [], ⟨_, _, found, _⟩, _, _, _ => by cases found
  | i, v :: rest, ⟨j, x, found, toward⟩, only, r, filled => by
    simp only [fillItems] at filled
    have head := only 0 v rfl
    rw [Nat.add_zero] at head
    cases first : fill res v (q ++ [.index i]) with
    | none => simp [first] at filled
    | some f =>
      cases f with
      | escape b' =>
        simp only [first, Option.some.injEq] at filled
        rw [← filled, head b' first]
      | value w =>
        simp only [first] at filled
        obtain ⟨r', found', rfl⟩ := Option.map_eq_some_iff.mp filled
        cases j with
        | zero =>
          simp only [List.getElem?_cons_zero, Option.some.injEq] at found
          subst found
          cases toward _ (by simpa using first)
        | succ j =>
          have rest' := fillItems_toward (i := i + 1) ⟨j, x, found, fun o filled' =>
              toward o (by simpa [Nat.add_assoc, Nat.add_comm 1] using filled')⟩
            (fun j' x' found'' b' escaped => only (j' + 1) x' found'' b'
              (by simpa [Nat.add_assoc, Nat.add_comm 1] using escaped)) r' found'
          rw [rest']
          rfl

end Escapes

end ResponseValue

namespace Exec

open ResponseValue

variable {σ : Type} {c : ExecContext σ} {hole : Holes} {res : Path → Option Filled}

/-- What fills the placeholders agrees with their holes: a null passing up from a placeholder goes
to its hole's boundary, and only from a non-null field. -/
def Respects (hole : Holes) (res : Path → Option Filled) : Prop :=
  ∀ p b type fields, hole p b type fields →
    ∀ b', res p = some (.escape b') → b' = b ∧ type.isNonNull = true

theorem boundaryOf_of_ne {type : TypeRef} {boundary p : Path}
    (away : boundaryOf type boundary p ≠ p) : boundaryOf type boundary p = boundary ∧ type.isNonNull = true := by
  unfold boundaryOf at away ⊢
  cases nonNull : type.isNonNull with
  | false => simp [nonNull] at away
  | true => simp

theorem Fits.boundary_eq_of_escape {path boundary type fields v}
    (fit : Fits c hole path boundary type fields v) (respects : Respects hole res) {x B : Path}
    (pending : v.at? x = some .pending) (escapes : res (path ++ x) = some (.escape B))
    (shorter : B.length < path.length + 1) : B = boundary := by
  obtain ⟨b, type', fields', allowed, lies⟩ := fit.hole_of_pending pending
  obtain ⟨rfl, -⟩ := respects _ _ _ _ allowed B escapes
  rcases lies with same | ⟨s, longer⟩
  · exact same
  · have := longer.length_le
    simp at this
    omega

mutual

/-- A typed tree passes a null up only to its position's boundary, and never from a position that
is its own boundary. -/
theorem Fits.escape {path boundary type fields v} (fit : Fits c hole path boundary type fields v)
    (respects : Respects hole res) {b : Path} (escaped : fill res v path = some (.escape b)) :
    b = boundary ∧ boundary ≠ path := by
  match fit with
  | .pending allowed =>
    rw [fill_pending] at escaped
    obtain ⟨found, away⟩ := absorb_eq_escape escaped
    obtain ⟨rfl, -⟩ := respects _ _ _ _ allowed b found
    exact ⟨rfl, away⟩
  | .nonNull _ _ inner => exact inner.escape respects escaped
  | .null _ => simp at escaped
  | .leaf _ => simp at escaped
  | .list items =>
    rw [fill_list] at escaped
    obtain ⟨filled, away⟩ := absorb_eq_escape escaped
    obtain ⟨r, found, same⟩ := Option.map_eq_some_iff.mp filled
    cases r with
    | inl _ => cases same
    | inr b' =>
      cases same
      obtain ⟨j, x, item, escapedItem⟩ := fillItems_eq_inr found
      obtain ⟨rfl, own⟩ := (items j x item).escape respects (by simpa using escapedItem)
      rw [(boundaryOf_of_ne own).1] at away ⊢
      exact ⟨rfl, away⟩
  | .object _ _ entries =>
    rw [fill_object] at escaped
    obtain ⟨filled, away⟩ := absorb_eq_escape escaped
    obtain ⟨r, found, same⟩ := Option.map_eq_some_iff.mp filled
    cases r with
    | inl _ => cases same
    | inr b' =>
      cases same
      obtain ⟨⟨k, e⟩, member, escapedEntry⟩ := fillEntries_eq_inr found
      obtain rfl := (entries k e member).escape respects escapedEntry
      exact ⟨rfl, away⟩
termination_by structural fit

theorem Entry.escape {path boundary o selections k e}
    (entry : Entry c hole path boundary o selections k e) (respects : Respects hole res) {b : Path}
    (escaped : fill res e (path ++ [.key k]) = some (.escape b)) : b = boundary := by
  match entry with
  | .typename .. => simp at escaped
  | .field _ _ _ _ fit =>
    obtain ⟨rfl, own⟩ := fit.escape respects escaped
    exact (boundaryOf_of_ne own).1
termination_by structural entry

end

mutual

/-- A placeholder below a position whose null passes up to the position's boundary takes the
position with it: the position fills to nothing, or to that null (null itself at its own
boundary). Nothing else stops the null on its way, since every other null passing up through the
position goes to the same boundary. -/
theorem Fits.fill_toward {path boundary type fields v} (fit : Fits c hole path boundary type fields v)
    (respects : Respects hole res) {B : Path} (same : B = boundary) (bounded : B <+: path) {x : Path}
    (pending : v.at? x = some .pending) (escapes : res (path ++ x) = some (.escape B)) :
    ∀ o, fill res v path = some o → some o = absorb path (some (.escape B)) := by
  have away : ∀ s : PathSegment, B ≠ path ++ [s] := fun s longer => by
    have := bounded.length_le
    rw [longer] at this
    simp at this
  match fit with
  | .pending _ =>
    cases x with
    | nil =>
      intro o filled
      rw [fill_pending, ← List.append_nil path, escapes, List.append_nil] at filled
      exact filled.symm
    | cons s x => simp at pending
  | .nonNull _ _ inner => exact inner.fill_toward respects same bounded pending escapes
  | .null _ => cases x <;> simp at pending
  | .leaf _ => cases x <;> simp at pending
  | .list items =>
    cases x with
    | nil => simp at pending
    | cons s x =>
      cases s with
      | key k => simp [at?] at pending
      | index i =>
        obtain ⟨y, found, below⟩ := Option.bind_eq_some_iff.mp (by simpa using pending)
        have onto : B = boundaryOf _ boundary (path ++ [.index i]) :=
          (items i y found).boundary_eq_of_escape respects below (by simpa using escapes)
            (by have := bounded.length_le; simp; omega)
        have toward := (items i y found).fill_toward respects onto
          (bounded.trans (List.prefix_append _ _)) below (by simpa using escapes)
        intro o filled
        rw [fill_list] at filled
        obtain ⟨r, filledItems, filled⟩ := absorb_map_eq_some filled
        have := fillItems_toward (q := path) (b := B)
          ⟨i, y, found, fun o' filled' => by
            rw [Nat.zero_add] at filled'
            have reached := toward o' filled'
            rw [absorb_ne (away _)] at reached
            exact Option.some.inj reached⟩
          (fun j z item b' escaped => by
            obtain ⟨rfl, own⟩ := (items j z item).escape respects (by simpa using escaped)
            rw [(boundaryOf_of_ne own).1, same]) _ filledItems
        subst this
        exact filled.symm
  | .object _ _ entries =>
    cases x with
    | nil => simp at pending
    | cons s x =>
      cases s with
      | index i => simp [at?] at pending
      | key k =>
        obtain ⟨e, found, below⟩ := Option.bind_eq_some_iff.mp (by simpa using pending)
        intro o filled
        rw [fill_object] at filled
        obtain ⟨r, filledEntries, filled⟩ := absorb_map_eq_some filled
        have := fillEntries_toward (q := path) (b := B)
          ⟨(k, e), mem_of_lookup found,
            (entries k e (mem_of_lookup found)).fill_toward respects bounded below escapes⟩
          (by
            rintro ⟨k', e'⟩ member b' escaped
            rw [(entries k' e' member).escape respects escaped, same]) r filledEntries
        subst this
        exact filled.symm
termination_by structural fit

theorem Entry.fill_toward {path boundary o selections k e}
    (entry : Entry c hole path boundary o selections k e) (respects : Respects hole res) {B : Path}
    (bounded : B <+: path) {x : Path} (pending : e.at? x = some .pending)
    (escapes : res (path ++ .key k :: x) = some (.escape B)) :
    ∀ o, fill res e (path ++ [.key k]) = some o → o = .escape B := by
  match entry with
  | .typename .. => cases x <;> simp at pending
  | .field _ _ _ _ fit =>
    have onto := fit.boundary_eq_of_escape respects pending (by simpa using escapes)
      (by have := bounded.length_le; simp; omega)
    intro o filled
    have toward := fit.fill_toward respects onto (bounded.trans (List.prefix_append _ _)) pending
      (by simpa using escapes) o filled
    rwa [absorb_ne, Option.some.injEq] at toward
    intro h
    have := bounded.length_le
    rw [h] at this
    simp at this
termination_by structural entry

end

mutual

/-- A placeholder strictly below a position has the hole of a field that is its own boundary when
it is nullable. -/
theorem Fits.own_of_pending {path boundary type fields v}
    (fit : Fits c hole path boundary type fields v) {s : PathSegment} {x : Path}
    (pending : v.at? (s :: x) = some .pending) :
    ∃ b type' fields', hole (path ++ s :: x) b type' fields' ∧
      (type'.isNonNull = false → b = path ++ s :: x) := by
  match fit with
  | .pending _ | .null _ | .leaf _ => simp at pending
  | .nonNull _ _ inner => exact inner.own_of_pending pending
  | .list items =>
    cases s with
    | key k => simp [at?] at pending
    | index i =>
      obtain ⟨y, found, below⟩ := Option.bind_eq_some_iff.mp (by simpa using pending)
      cases x with
      | nil =>
        obtain rfl : y = .pending := by simpa using below
        refine ⟨_, _, _, (items i .pending found).hole_of_placeholder, fun nullable => ?_⟩
        simp [boundaryOf, nullable]
      | cons s' x =>
        obtain ⟨b, type', fields', allowed, own⟩ := (items i y found).own_of_pending below
        exact ⟨b, type', fields', by simpa using allowed, by simpa using own⟩
  | .object _ _ entries =>
    cases s with
    | index i => simp [at?] at pending
    | key k =>
      obtain ⟨e, found, below⟩ := Option.bind_eq_some_iff.mp (by simpa using pending)
      exact (entries k e (mem_of_lookup found)).own_of_pending below
termination_by structural fit

theorem Entry.own_of_pending {path boundary o selections k e}
    (entry : Entry c hole path boundary o selections k e) {x : Path}
    (pending : e.at? x = some .pending) :
    ∃ b type' fields', hole (path ++ .key k :: x) b type' fields' ∧
      (type'.isNonNull = false → b = path ++ .key k :: x) := by
  match entry with
  | .typename .. => cases x <;> simp at pending
  | .field _ _ _ _ fit =>
    cases x with
    | nil =>
      obtain rfl : _ = ResponseValue.pending := by simpa using pending
      refine ⟨_, _, _, by simpa using fit.hole_of_placeholder, fun nullable => ?_⟩
      simp [boundaryOf, nullable]
    | cons s x =>
      obtain ⟨b, type', fields', allowed, own⟩ := fit.own_of_pending pending
      exact ⟨b, type', fields', by simpa using allowed, by simpa using own⟩
termination_by structural entry

end

mutual

theorem Fits.keysDistinct {path boundary type fields v}
    (fit : Fits c hole path boundary type fields v) : v.KeysDistinct := by
  match fit with
  | .pending _ | .null _ | .leaf _ =>
    intro x fs found
    cases x <;> simp at found
  | .nonNull _ _ inner => exact inner.keysDistinct
  | .list items =>
    refine keysDistinct_list fun y member => ?_
    obtain ⟨i, found⟩ := List.mem_iff_getElem?.mp member
    exact (items i y found).keysDistinct
  | .object _ distinct entries =>
    exact keysDistinct_object distinct fun e member => (entries e.1 e.2 member).keysDistinct
termination_by structural fit

theorem Entry.keysDistinct {path boundary o selections k e}
    (entry : Entry c hole path boundary o selections k e) : e.KeysDistinct := by
  match entry with
  | .typename .. =>
    intro x fs found
    cases x <;> simp at found
  | .field _ _ _ _ fit => exact fit.keysDistinct
termination_by structural entry

end

mutual

/-- The subtree at a position below fits there, at a boundary on its path. -/
theorem Fits.sub {path boundary type fields v} (fit : Fits c hole path boundary type fields v)
    (bounded : boundary <+: path) {x : Path} {u : ResponseValue} (found : v.at? x = some u)
    (notLeaf : ∀ j, u ≠ .leaf j) :
    ∃ b type' fields', Fits c hole (path ++ x) b type' fields' u ∧ b <+: path ++ x := by
  cases x with
  | nil =>
    obtain rfl : v = u := by simpa using found
    exact ⟨boundary, type, fields, by simpa using fit, by simpa using bounded⟩
  | cons s x =>
  match fit with
  | .pending _ | .null _ | .leaf _ => simp at found
  | .nonNull _ _ inner => exact inner.sub bounded found notLeaf
  | .list items =>
    cases s with
    | key k => simp [at?] at found
    | index i =>
      obtain ⟨y, item, below⟩ := Option.bind_eq_some_iff.mp (by simpa using found)
      obtain ⟨b, type', fields', fit', lies⟩ :=
        (items i y item).sub (boundaryOf_above _ bounded) below notLeaf
      exact ⟨b, type', fields', by simpa using fit', by simpa using lies⟩
  | .object _ _ entries =>
    cases s with
    | index i => simp [at?] at found
    | key k =>
      obtain ⟨e, looked, below⟩ := Option.bind_eq_some_iff.mp (by simpa using found)
      exact (entries k e (mem_of_lookup looked)).sub bounded below notLeaf
termination_by structural fit

theorem Entry.sub {path boundary o selections k e}
    (entry : Entry c hole path boundary o selections k e) (bounded : boundary <+: path) {x : Path}
    {u : ResponseValue} (found : e.at? x = some u) (notLeaf : ∀ j, u ≠ .leaf j) :
    ∃ b type' fields', Fits c hole (path ++ .key k :: x) b type' fields' u ∧
      b <+: path ++ .key k :: x := by
  match entry with
  | .typename .. =>
    cases x with
    | nil => exact absurd (by simpa using found.symm) (notLeaf _)
    | cons s x => simp at found
  | .field _ _ _ _ fit =>
    obtain ⟨b, type', fields', fit', lies⟩ := fit.sub (boundaryOf_above _ bounded) found notLeaf
    exact ⟨b, type', fields', by simpa using fit', by simpa using lies⟩
termination_by structural entry

end

end Exec

end GraphWeave
