import Mathlib.Data.List.Nodup

/-!
# Ordered tables

`OrdTable key`: a hash table that remembers the order of insertion, as PHP's `HashTable` does. It
is the list of its values, oldest first; each value carries its own key (`key v`), and no two
values have the same key (`nodup`), so a table with a duplicate cannot be built.

* `find?`: the value of a key; `mem_iff_find?`: the values are those that their own key finds.
* `addNew`: a new value at the end, unless its key is taken; `set`: replaces the value of the
  same key in place, or appends; `modify`: changes a value without its key; `filter`.
* `keys`, `keysWhere`: the keys, and those of the values with a property, in their order;
  `total`: the sum of a weight over the values.
* `find?_addNew`, `find?_set`, `find?_modify`, `find?_filter`: what a look-up finds after each of
  these. A proof about a client uses only these.
-/

universe u v

/-- The values of a table in the order of their insertion, with distinct keys. -/
structure OrdTable {κ : Type u} {ν : Type v} (key : ν → κ) where
  vals : List ν
  nodup : (vals.map key).Nodup

namespace OrdTable

variable {κ : Type u} {ν : Type v} {key : ν → κ}

def empty : OrdTable key := ⟨[], List.nodup_nil⟩

@[simp] theorem vals_empty : (empty : OrdTable key).vals = [] := rfl

/-- Two values of a table with the same key are the same value. -/
theorem eq_of_key_eq (t : OrdTable key) {v w : ν} (hv : v ∈ t.vals) (hw : w ∈ t.vals)
    (h : key v = key w) : v = w :=
  List.inj_on_of_nodup_map t.nodup hv hw h

/-- Changes every value with `f`, which keeps the keys. -/
def mapVals (t : OrdTable key) (f : ν → ν) (hf : ∀ v, key (f v) = key v) : OrdTable key :=
  ⟨t.vals.map f, by
    have e : key ∘ f = key := funext hf
    rw [List.map_map, e]; exact t.nodup⟩

/-- The keys of the values with `p`, in the order of the table. -/
def keysWhere (t : OrdTable key) (p : ν → Bool) : List κ := (t.vals.filter p).map key

theorem keysWhere_nodup (t : OrdTable key) (p : ν → Bool) : (t.keysWhere p).Nodup :=
  t.nodup.sublist (List.Sublist.map key List.filter_sublist)

theorem head?_keysWhere (t : OrdTable key) (p : ν → Bool) :
    (t.keysWhere p).head? = (t.vals.find? p).map key := by
  unfold keysWhere
  rw [List.head?_map, List.head?_filter]

/-- The keys, in the order of the table. -/
def keys (t : OrdTable key) : List κ := t.vals.map key

theorem keys_mapVals (t : OrdTable key) (f : ν → ν) (hf : ∀ v, key (f v) = key v) :
    (t.mapVals f hf).keys = t.keys := by
  have e : key ∘ f = key := funext hf
  unfold keys mapVals
  rw [List.map_map, e]

/-- Values that lose `p` drop out, and none comes in. -/
theorem keysWhere_mapVals_sublist (t : OrdTable key) {p : ν → Bool} {f : ν → ν}
    (hf : ∀ v, key (f v) = key v) (hp : ∀ v, p (f v) = true → p v = true) :
    ((t.mapVals f hf).keysWhere p).Sublist (t.keysWhere p) := by
  unfold keysWhere mapVals
  simp only
  induction t.vals with
  | nil => exact List.Sublist.refl _
  | cons v vs ih =>
    rw [List.map_cons, List.filter_cons, List.filter_cons]
    cases hv : p (f v) with
    | true =>
      rw [if_pos rfl, if_pos (hp v hv), List.map_cons, List.map_cons, hf]
      exact ih.cons_cons _
    | false =>
      rw [if_neg Bool.false_ne_true]
      split
      · exact ih.cons _
      · exact ih

/-! ### Weights -/

/-- The sum of the weights of some values. -/
def weigh (w : ν → Nat) : List ν → Nat
  | [] => 0
  | v :: vs => w v + weigh w vs

theorem weigh_append (w : ν → Nat) (vs vs' : List ν) :
    weigh w (vs ++ vs') = weigh w vs + weigh w vs' := by
  induction vs with
  | nil => exact (Nat.zero_add _).symm
  | cons v vs ih =>
    show w v + weigh w (vs ++ vs') = w v + weigh w vs + weigh w vs'
    rw [ih, Nat.add_assoc]

theorem weigh_map_le {f : ν → ν} {w w' : ν → Nat} {vs : List ν} (h : ∀ v ∈ vs, w' (f v) ≤ w v) :
    weigh w' (vs.map f) ≤ weigh w vs := by
  induction vs with
  | nil => exact Nat.le_refl 0
  | cons v vs ih =>
    obtain ⟨hv, hvs⟩ := List.forall_mem_cons.mp h
    exact Nat.add_le_add hv (ih hvs)

theorem weigh_map_lt {f : ν → ν} {w w' : ν → Nat} {vs : List ν} (h : ∀ v ∈ vs, w' (f v) ≤ w v)
    {v : ν} (hv : v ∈ vs) (hlt : w' (f v) < w v) : weigh w' (vs.map f) < weigh w vs := by
  induction vs with
  | nil => cases hv
  | cons u vs ih =>
    obtain ⟨hu, hvs⟩ := List.forall_mem_cons.mp h
    rcases List.mem_cons.mp hv with rfl | hv
    · exact Nat.add_lt_add_of_lt_of_le hlt (weigh_map_le hvs)
    · exact Nat.add_lt_add_of_le_of_lt hu (ih hvs hv)

/-- The sum of the weights of the values of a table. -/
def total (t : OrdTable key) (w : ν → Nat) : Nat := weigh w t.vals

/-- The values with `p`. -/
def filter (t : OrdTable key) (p : ν → Bool) : OrdTable key :=
  ⟨t.vals.filter p, t.nodup.sublist (List.Sublist.map key List.filter_sublist)⟩

theorem mem_filter {t : OrdTable key} {p : ν → Bool} {v : ν} :
    v ∈ (t.filter p).vals ↔ v ∈ t.vals ∧ p v = true :=
  List.mem_filter

theorem filter_congr {t : OrdTable key} {p q : ν → Bool} (h : ∀ v ∈ t.vals, p v = q v) :
    t.filter p = t.filter q := by
  unfold filter
  congr 1
  exact List.filter_congr h

theorem filter_eq_self {t : OrdTable key} {p : ν → Bool} (h : ∀ v ∈ t.vals, p v = true) :
    t.filter p = t := by
  obtain ⟨vs, hnodup⟩ := t
  unfold filter
  congr 1
  exact List.filter_eq_self.mpr h

theorem filter_filter (t : OrdTable key) (p q : ν → Bool) :
    (t.filter p).filter q = t.filter fun v => q v && p v := by
  unfold filter
  congr 1
  exact List.filter_filter

section DecidableKey

variable [DecidableEq κ]

/-- The value of the key `k`. -/
def find? (t : OrdTable key) (k : κ) : Option ν := t.vals.find? (fun v => key v = k)

@[simp] theorem find?_empty (k : κ) : (empty : OrdTable key).find? k = none := rfl

theorem key_of_find? {t : OrdTable key} {k : κ} {v : ν} (h : t.find? k = some v) : key v = k := by
  have := List.find?_some h
  simpa using this

theorem mem_of_find? {t : OrdTable key} {k : κ} {v : ν} (h : t.find? k = some v) : v ∈ t.vals :=
  List.mem_of_find?_eq_some h

theorem find?_of_mem {t : OrdTable key} {v : ν} (h : v ∈ t.vals) : t.find? (key v) = some v := by
  cases hf : t.find? (key v) with
  | none =>
    have := List.find?_eq_none.mp hf v h
    simp at this
  | some w => rw [t.eq_of_key_eq h (mem_of_find? hf) (key_of_find? hf).symm]

theorem mem_iff_find? {t : OrdTable key} {v : ν} : v ∈ t.vals ↔ t.find? (key v) = some v :=
  ⟨find?_of_mem, mem_of_find?⟩

theorem find?_eq_none {t : OrdTable key} {k : κ} : t.find? k = none ↔ ∀ v ∈ t.vals, key v ≠ k := by
  unfold find?
  rw [List.find?_eq_none]
  simp

/-- A value, and what is left without its key. -/
theorem perm_cons_filter {t : OrdTable key} {k : κ} {v : ν} (h : t.find? k = some v) :
    t.vals.Perm (v :: (t.filter fun w => key w ≠ k).vals) := by
  obtain ⟨vs, hnodup⟩ := t
  unfold filter
  unfold find? at h
  simp only at h ⊢
  induction vs with
  | nil => cases h
  | cons w vs ih =>
    obtain ⟨hw, hvs⟩ := List.nodup_cons.mp hnodup
    by_cases hk : key w = k
    · rw [List.find?_cons_of_pos (by simpa using hk)] at h
      obtain rfl := Option.some.inj h
      have hrest : vs.filter (fun u => key u ≠ k) = vs := List.filter_eq_self.mpr fun u hu =>
        decide_eq_true fun hu' => hw (List.mem_map.mpr ⟨u, hu, hu'.trans hk.symm⟩)
      rw [List.filter_cons_of_neg (by simpa using hk), hrest]
    · rw [List.find?_cons_of_neg (by simpa using hk)] at h
      rw [List.filter_cons_of_pos (by simpa using hk)]
      exact ((ih hvs h).cons w).trans (List.Perm.swap _ _ _)

/-- `v` at the end of the table; nothing changes when its key is taken. -/
def addNew (t : OrdTable key) (v : ν) : OrdTable key :=
  if h : t.find? (key v) = none then
    ⟨t.vals ++ [v], by
      rw [List.map_append, List.nodup_append]
      refine ⟨t.nodup, by simp, ?_⟩
      intro k hk k' hk'
      obtain ⟨w, hw, rfl⟩ := List.mem_map.mp hk
      rw [List.map_singleton, List.mem_singleton] at hk'
      subst hk'
      exact find?_eq_none.mp h w hw⟩
  else t

theorem addNew_vals {t : OrdTable key} {v : ν} (h : t.find? (key v) = none) :
    (t.addNew v).vals = t.vals ++ [v] := by
  simp [addNew, h]

theorem addNew_of_find? {t : OrdTable key} {v w : ν} (h : t.find? (key v) = some w) :
    t.addNew v = t := by
  simp [addNew, h]

theorem find?_addNew (t : OrdTable key) (v : ν) (k : κ) :
    (t.addNew v).find? k =
      if k = key v then some ((t.find? k).getD v) else t.find? k := by
  cases h : t.find? (key v) with
  | some w =>
    rw [addNew_of_find? h]
    split
    · rename_i e; rw [e, h]; rfl
    · rfl
  | none =>
    have e : (t.addNew v).find? k = (t.find? k).or (if key v = k then some v else none) := by
      unfold find?
      rw [addNew_vals h, List.find?_append, List.find?_singleton]
      simp
    rw [e]
    by_cases hk : k = key v
    · subst hk; simp [h]
    · simp [hk, Ne.symm hk]

theorem keys_addNew (t : OrdTable key) (v : ν) :
    (t.addNew v).keys = if key v ∈ t.keys then t.keys else t.keys ++ [key v] := by
  cases h : t.find? (key v) with
  | some w =>
    have hmem : key v ∈ t.keys := List.mem_map.mpr ⟨w, mem_of_find? h, key_of_find? h⟩
    rw [addNew_of_find? h, if_pos hmem]
  | none =>
    have hmem : key v ∉ t.keys := by
      intro hk
      obtain ⟨w, hw, hkey⟩ := List.mem_map.mp hk
      exact find?_eq_none.mp h w hw hkey
    rw [if_neg hmem]
    unfold keys
    rw [addNew_vals h, List.map_append, List.map_singleton]

/-- The values are what the keys find. -/
theorem vals_eq_filterMap (t : OrdTable key) : t.vals = t.keys.filterMap t.find? := by
  have hsome : ∀ v ∈ t.vals, (t.find? ∘ key) v = some v := fun v hv => find?_of_mem hv
  unfold keys
  rw [List.filterMap_map, List.filterMap_congr hsome, List.filterMap_some]

/-- `v` in the place of the value of the same key, or at the end. -/
def set (t : OrdTable key) (v : ν) : OrdTable key :=
  (t.addNew v).mapVals (fun w => if key w = key v then v else w) fun w => by
    split
    · rename_i h; exact h.symm
    · rfl

/-- Changes the value of the key `k` with `f`, which keeps the keys. -/
def modify (t : OrdTable key) (k : κ) (f : ν → ν) (hf : ∀ v, key (f v) = key v) : OrdTable key :=
  t.mapVals (fun v => if key v = k then f v else v) fun v => by
    split
    · exact hf v
    · rfl

theorem find?_mapVals (t : OrdTable key) (f : ν → ν) (hf : ∀ v, key (f v) = key v) (k : κ) :
    (t.mapVals f hf).find? k = (t.find? k).map f := by
  have e : ((fun v => decide (key v = k)) ∘ f) = fun v => decide (key v = k) := by
    funext v; simp [hf]
  unfold find? mapVals
  rw [List.find?_map, e]

theorem find?_modify (t : OrdTable key) (k : κ) (f : ν → ν) (hf : ∀ v, key (f v) = key v)
    (k' : κ) :
    (t.modify k f hf).find? k' = if k' = k then (t.find? k').map f else t.find? k' := by
  unfold modify
  rw [find?_mapVals]
  cases h : t.find? k' with
  | none => simp
  | some v =>
    have hk := key_of_find? h
    split <;> simp_all

theorem keys_modify (t : OrdTable key) (k : κ) (f : ν → ν) (hf : ∀ v, key (f v) = key v) :
    (t.modify k f hf).keys = t.keys := keys_mapVals t _ _

theorem find?_modify_ne {t : OrdTable key} {k k' : κ} (f : ν → ν)
    (hf : ∀ v, key (f v) = key v) (h : k' ≠ k) :
    (t.modify k f hf).find? k' = t.find? k' := by
  rw [find?_modify, if_neg h]

theorem mapVals_addNew (t : OrdTable key) (f : ν → ν) (hf : ∀ v, key (f v) = key v) (v : ν) :
    (t.addNew v).mapVals f hf = (t.mapVals f hf).addNew (f v) := by
  have hfind : (t.mapVals f hf).find? (key (f v)) = (t.find? (key v)).map f := by
    rw [find?_mapVals, hf]
  cases h : t.find? (key v) with
  | some w =>
    rw [h] at hfind
    rw [addNew_of_find? h, addNew_of_find? hfind]
  | none =>
    rw [h, Option.map_none] at hfind
    unfold addNew
    rw [dif_pos h, dif_pos hfind]
    unfold mapVals
    congr 1
    exact List.map_append

/-- A write under `f`, which is another write behind it. -/
theorem mapVals_modify (t : OrdTable key) (k : κ) {f g g' : ν → ν} (hf : ∀ v, key (f v) = key v)
    (hg : ∀ v, key (g v) = key v) (hg' : ∀ v, key (g' v) = key v) (h : ∀ v, f (g v) = g' (f v)) :
    (t.modify k g hg).mapVals f hf = (t.mapVals f hf).modify k g' hg' := by
  unfold modify mapVals
  congr 1
  rw [List.map_map, List.map_map]
  refine List.map_congr_left fun v _ => ?_
  simp only [Function.comp_apply, hf]
  split
  · exact h v
  · rfl

/-- Two writes that agree on the value of the key. -/
theorem modify_congr {t : OrdTable key} {k : κ} {f g : ν → ν} {hf : ∀ v, key (f v) = key v}
    {hg : ∀ v, key (g v) = key v} (h : ∀ v, t.find? k = some v → f v = g v) :
    t.modify k f hf = t.modify k g hg := by
  unfold modify mapVals
  congr 1
  refine List.map_congr_left fun v hv => ?_
  split
  · rename_i hk
    exact h v (hk ▸ find?_of_mem hv)
  · rfl

/-- A write that leaves the value of the key as it is. -/
theorem modify_eq_self {t : OrdTable key} {k : κ} {f : ν → ν} {hf : ∀ v, key (f v) = key v}
    (h : ∀ v, t.find? k = some v → f v = v) : t.modify k f hf = t := by
  obtain ⟨vs, hnodup⟩ := t
  unfold modify mapVals
  congr 1
  refine (List.map_congr_left fun v hv => ?_).trans (List.map_id vs)
  split
  · rename_i hk
    exact h v (hk ▸ find?_of_mem (t := ⟨vs, hnodup⟩) hv)
  · rfl

/-- Two writes to the same value are one. -/
theorem modify_modify (t : OrdTable key) (k : κ) (f g : ν → ν) (hf : ∀ v, key (f v) = key v)
    (hg : ∀ v, key (g v) = key v) :
    (t.modify k f hf).modify k g hg =
      t.modify k (fun v => g (f v)) fun v => (hg (f v)).trans (hf v) := by
  unfold modify mapVals
  congr 1
  rw [List.map_map]
  refine List.map_congr_left fun v _ => ?_
  by_cases hk : key v = k
  · simp only [Function.comp_apply, if_pos hk, if_pos ((hf v).trans hk)]
  · simp only [Function.comp_apply, if_neg hk]

/-- A write that is made if the value of the key has `p`. -/
theorem ite_modify (t : OrdTable key) (k : κ) (p : ν → Bool) (f : ν → ν)
    (hf : ∀ v, key (f v) = key v) (hg : ∀ v, key (if p v then f v else v) = key v) :
    (if (t.find? k).any p then t.modify k f hf else t) =
      t.modify k (fun v => if p v then f v else v) hg := by
  cases h : t.find? k with
  | none =>
    refine (if_neg Bool.false_ne_true).trans (modify_eq_self fun v hv => ?_).symm
    rw [h] at hv
    cases hv
  | some v =>
    rw [Option.any_some]
    cases hp : p v with
    | true =>
      refine (if_pos rfl).trans (modify_congr fun w hw => ?_)
      obtain rfl : v = w := Option.some.inj (h.symm.trans hw)
      rw [if_pos hp]
    | false =>
      refine (if_neg Bool.false_ne_true).trans (modify_eq_self fun w hw => ?_).symm
      obtain rfl : v = w := Option.some.inj (h.symm.trans hw)
      rw [if_neg (ne_true_of_eq_false hp)]

theorem find?_set (t : OrdTable key) (v : ν) (k : κ) :
    (t.set v).find? k = if k = key v then some v else t.find? k := by
  unfold set
  rw [find?_mapVals, find?_addNew]
  by_cases hk : k = key v
  · subst hk
    simp only [↓reduceIte, Option.map_some, Option.some.injEq]
    cases h : t.find? (key v) with
    | none => simp
    | some w => simp [key_of_find? h]
  · simp only [if_neg hk]
    cases h : t.find? k with
    | none => rfl
    | some w =>
      have := key_of_find? h
      subst this
      simp [hk]

theorem set_vals_new {t : OrdTable key} {v : ν} (h : t.find? (key v) = none) :
    (t.set v).vals = t.vals ++ [v] := by
  unfold set mapVals
  simp only
  rw [addNew_vals h, List.map_append, List.map_singleton, if_pos rfl]
  refine congrArg (· ++ [v]) ?_
  calc t.vals.map (fun w => if key w = key v then v else w)
      = t.vals.map id := List.map_congr_left fun w hw => if_neg (find?_eq_none.mp h w hw)
    _ = t.vals := List.map_id _

theorem mem_set {t : OrdTable key} {v w : ν} :
    w ∈ (t.set v).vals ↔ w = v ∨ (w ∈ t.vals ∧ key w ≠ key v) := by
  rw [mem_iff_find?, find?_set, mem_iff_find?]
  by_cases hk : key w = key v
  · rw [if_pos hk]
    constructor
    · rintro ⟨⟩
      exact .inl rfl
    · rintro (rfl | ⟨-, hne⟩)
      · rfl
      · exact absurd hk hne
  · rw [if_neg hk]
    constructor
    · intro h
      exact .inr ⟨h, hk⟩
    · rintro (rfl | ⟨h, -⟩)
      · exact absurd rfl hk
      · exact h

theorem find?_filter {t : OrdTable key} {p : ν → Bool} {k : κ} :
    (t.filter p).find? k = (t.find? k).filter p := by
  cases h : t.find? k with
  | none =>
    refine find?_eq_none.mpr fun v hv => ?_
    exact find?_eq_none.mp h v (mem_filter.mp hv).1
  | some v =>
    obtain rfl := key_of_find? h
    cases hp : p v with
    | true =>
      rw [find?_of_mem (mem_filter.mpr ⟨mem_of_find? h, hp⟩), Option.filter_some_pos hp]
    | false =>
      rw [Option.filter_some_neg hp]
      refine find?_eq_none.mpr fun w hw hk => ?_
      obtain ⟨hw, hpw⟩ := mem_filter.mp hw
      rw [t.eq_of_key_eq hw (mem_of_find? h) hk, hp] at hpw
      cases hpw

theorem mem_keysWhere {t : OrdTable key} {p : ν → Bool} {k : κ} :
    k ∈ t.keysWhere p ↔ ∃ v, t.find? k = some v ∧ p v = true := by
  unfold keysWhere
  simp only [List.mem_map, List.mem_filter]
  constructor
  · rintro ⟨v, ⟨hv, hp⟩, rfl⟩
    exact ⟨v, find?_of_mem hv, hp⟩
  · rintro ⟨v, hf, hp⟩
    exact ⟨v, ⟨mem_of_find? hf, hp⟩, key_of_find? hf⟩

theorem key_mem_keysWhere {t : OrdTable key} {p : ν → Bool} {v : ν} (hv : v ∈ t.vals) :
    key v ∈ t.keysWhere p ↔ p v = true := by
  rw [mem_keysWhere, find?_of_mem hv]
  simp

theorem keysWhere_addNew (t : OrdTable key) {p : ν → Bool} {v : ν} (hp : p v = false) :
    (t.addNew v).keysWhere p = t.keysWhere p := by
  cases h : t.find? (key v) with
  | some w => rw [addNew_of_find? h]
  | none =>
    unfold keysWhere
    rw [addNew_vals h, List.filter_append, List.filter_singleton, hp]
    simp

/-- A new value without weight. -/
theorem total_addNew (t : OrdTable key) {w : ν → Nat} {v : ν} (hw : w v = 0) :
    (t.addNew v).total w = t.total w := by
  cases h : t.find? (key v) with
  | some u => rw [addNew_of_find? h]
  | none =>
    unfold total
    rw [addNew_vals h, weigh_append]
    show weigh w t.vals + (w v + 0) = _
    rw [hw]
    rfl

theorem total_modify_le (t : OrdTable key) {k : κ} {f : ν → ν} (hf : ∀ v, key (f v) = key v)
    {w w' : ν → Nat} (h : ∀ v, w' v ≤ w v) (hk : ∀ v, t.find? k = some v → w' (f v) ≤ w v) :
    (t.modify k f hf).total w' ≤ t.total w := by
  refine weigh_map_le fun v hv => ?_
  split
  · rename_i hkey
    subst hkey
    exact hk v (find?_of_mem hv)
  · exact h v

/-- The value of the key becomes lighter. -/
theorem total_modify_lt (t : OrdTable key) {k : κ} {f : ν → ν} (hf : ∀ v, key (f v) = key v)
    {w w' : ν → Nat} (h : ∀ v, w' v ≤ w v) {v : ν} (hv : t.find? k = some v)
    (hlt : w' (f v) < w v) : (t.modify k f hf).total w' < t.total w := by
  refine weigh_map_lt (fun u hu => ?_) (mem_of_find? hv) ?_
  · split
    · rename_i hkey
      subst hkey
      obtain rfl : u = v := Option.some.inj ((find?_of_mem hu).symm.trans hv)
      exact Nat.le_of_lt hlt
    · exact h u
  · rw [if_pos (key_of_find? hv)]
    exact hlt

theorem keysWhere_modify_sublist (t : OrdTable key) {p : ν → Bool} (k : κ) {f : ν → ν}
    (hf : ∀ v, key (f v) = key v) (hp : ∀ v, p (f v) = true → p v = true) :
    ((t.modify k f hf).keysWhere p).Sublist (t.keysWhere p) := by
  refine keysWhere_mapVals_sublist t _ fun v hv => ?_
  split at hv
  · exact hp v hv
  · exact hv

theorem mem_keysWhere_modify_ne {t : OrdTable key} {p : ν → Bool} {k k' : κ} {f : ν → ν}
    (hf : ∀ v, key (f v) = key v) (hne : k' ≠ k) :
    k' ∈ (t.modify k f hf).keysWhere p ↔ k' ∈ t.keysWhere p := by
  rw [mem_keysWhere, mem_keysWhere, find?_modify_ne f hf hne]

end DecidableKey

end OrdTable
