/-!
# Tables

Pairs of a key and a value in the order in which the keys came; a key occurs once.

## Main definitions

* `Table.get?`, `Table.put`, `Table.erase`: look-up, insertion or replacement, removal.
* `get?_put`: what a look-up finds after an insertion.
* `mem_of_get?`, `mem_put`, `get?_filter_key`: what is found is there, and stays with its key.
* `nodup_put`, `nodup_filter`, `get?_filter`: tables in which a key occurs once.
-/
namespace Switchboard

/-- Values by key, in the order in which the keys came. -/
abbrev Table (κ α : Type) := List (κ × α)

namespace Table

variable {κ α : Type} [DecidableEq κ]

/-- The value of a key. -/
def get? (key : κ) : Table κ α → Option α
  | [] => none
  | (k, v) :: rest => if k = key then some v else get? key rest

/-- Gives a key a value; a key that is there keeps its place. -/
def put (key : κ) (value : α) : Table κ α → Table κ α
  | [] => [(key, value)]
  | (k, v) :: rest => if k = key then (key, value) :: rest else (k, v) :: put key value rest

/-- Removes a key. -/
def erase (key : κ) (t : Table κ α) : Table κ α := t.filter fun p => p.1 ≠ key

/-- The keys. -/
def keys (t : Table κ α) : List κ := t.map (·.1)

omit [DecidableEq κ] in
@[simp] theorem keys_nil : keys ([] : Table κ α) = [] := rfl

@[simp] theorem get?_nil (key : κ) : get? key ([] : Table κ α) = none := rfl

@[simp] theorem get?_put_self (key : κ) (value : α) (t : Table κ α) :
    get? key (put key value t) = some value := by
  induction t with
  | nil => simp [put, get?]
  | cons p rest ih =>
    obtain ⟨k, v⟩ := p
    simp only [put]
    split <;> simp_all [get?]

theorem get?_put_of_ne {key other : κ} (h : other ≠ key) (value : α) (t : Table κ α) :
    get? other (put key value t) = get? other t := by
  induction t with
  | nil => simp [put, get?, Ne.symm h]
  | cons p rest ih =>
    obtain ⟨k, v⟩ := p
    simp only [put]
    split
    · rename_i hk; simp [get?, hk, Ne.symm h]
    · simp [get?, ih]

theorem get?_put (key other : κ) (value : α) (t : Table κ α) :
    get? other (put key value t) = if other = key then some value else get? other t := by
  split
  · rename_i h; subst h; exact get?_put_self _ _ _
  · rename_i h; exact get?_put_of_ne h _ _

@[simp] theorem put_put (key : κ) (first value : α) (t : Table κ α) :
    put key value (put key first t) = put key value t := by
  induction t with
  | nil => simp [put]
  | cons p rest ih =>
    obtain ⟨k, v⟩ := p
    by_cases hk : k = key <;> simp [put, hk, ih]

theorem mem_of_get? {t : Table κ α} {key : κ} {value : α}
    (h : get? key t = some value) : (key, value) ∈ t := by
  induction t with
  | nil => simp at h
  | cons p rest ih =>
    obtain ⟨k, v⟩ := p
    by_cases hk : k = key
    · obtain rfl : v = value := by simpa [get?, hk] using h
      simp [hk]
    · exact List.mem_cons_of_mem _ (ih (by simpa [get?, hk] using h))

theorem mem_put {t : Table κ α} {key : κ} {value : α} {p : κ × α} (h : p ∈ put key value t) :
    p = (key, value) ∨ p ∈ t := by
  induction t with
  | nil => simpa [put] using h
  | cons q rest ih =>
    obtain ⟨k, v⟩ := q
    by_cases hk : k = key
    · rcases List.mem_cons.mp (by simpa [put, hk] using h) with rfl | hp
      · exact .inl rfl
      · exact .inr (List.mem_cons_of_mem _ hp)
    · rcases List.mem_cons.mp (by simpa [put, hk] using h) with rfl | hp
      · exact .inr List.mem_cons_self
      · exact (ih hp).imp_right (List.mem_cons_of_mem _)

/-- Keys that stay are found as before. -/
theorem get?_filter_key {t : Table κ α} {f : κ → Bool} {key : κ} (h : f key = true) :
    get? key (t.filter fun p => f p.1) = get? key t := by
  induction t with
  | nil => rfl
  | cons p rest ih =>
    obtain ⟨k, v⟩ := p
    by_cases hk : k = key
    · subst hk
      simp [get?, h]
    · by_cases hf : f k = true
      · simp [get?, hf, hk, ih]
      · simp [get?, hf, hk, ih]

theorem get?_erase (key other : κ) (t : Table κ α) :
    get? other (erase key t) = if other = key then none else get? other t := by
  split
  case isTrue h =>
    subst h
    cases hget : get? other (erase other t) with
    | none => rfl
    | some value => simpa [erase] using (List.mem_filter.mp (mem_of_get? hget)).2
  case isFalse h => exact get?_filter_key (f := fun k => decide (k ≠ key)) (by simpa using h)

/-! ## A key occurs once -/

omit [DecidableEq κ] in
theorem nodup_filter {t : Table κ α} (h : (keys t).Nodup) (f : κ × α → Bool) :
    (keys (t.filter f)).Nodup :=
  List.Pairwise.sublist (List.filter_sublist.map _) h

theorem mem_keys_put {t : Table κ α} {key other : κ} {value : α}
    (h : other ∈ keys (put key value t)) : other = key ∨ other ∈ keys t := by
  obtain ⟨p, hp, rfl⟩ := List.mem_map.mp h
  rcases mem_put hp with rfl | hp
  · exact .inl rfl
  · exact .inr (List.mem_map.mpr ⟨p, hp, rfl⟩)

theorem nodup_put {t : Table κ α} (h : (keys t).Nodup) (key : κ) (value : α) :
    (keys (put key value t)).Nodup := by
  induction t with
  | nil => simp [put, keys]
  | cons p rest ih =>
    obtain ⟨k, v⟩ := p
    obtain ⟨hk, hrest⟩ := List.nodup_cons.mp h
    by_cases heq : k = key
    · subst heq
      simpa [put, keys] using h
    · have hnot : k ∉ keys (put key value rest) := by
        intro hmem
        rcases mem_keys_put hmem with hmem | hmem
        · exact heq hmem
        · exact hk hmem
      simpa [put, heq, keys] using List.nodup_cons.mpr ⟨hnot, ih hrest⟩

/-- A key that is there is found with its value. -/
theorem get?_of_mem {t : Table κ α} (h : (keys t).Nodup) {key : κ} {value : α}
    (hmem : (key, value) ∈ t) : get? key t = some value := by
  induction t with
  | nil => simp at hmem
  | cons p rest ih =>
    obtain ⟨k, v⟩ := p
    obtain ⟨hk, hrest⟩ := List.nodup_cons.mp h
    rcases List.mem_cons.mp hmem with heq | hmem
    · obtain ⟨rfl, rfl⟩ := Prod.mk.inj heq
      simp [get?]
    · have hne : k ≠ key := by
        rintro rfl
        exact hk (List.mem_map.mpr ⟨(k, value), hmem, rfl⟩)
      simpa [get?, hne] using ih hrest hmem

/-- What is found is found still, if it stays. -/
theorem get?_filter {t : Table κ α} (h : (keys t).Nodup) (f : κ × α → Bool) (key : κ) :
    get? key (t.filter f) = (get? key t).filter fun value => f (key, value) := by
  cases hget : get? key (t.filter f) with
  | some value =>
    obtain ⟨hmem, hf⟩ := List.mem_filter.mp (mem_of_get? hget)
    rw [get?_of_mem h hmem, Option.filter_some, if_pos hf]
  | none =>
    cases hbefore : get? key t with
    | none => rfl
    | some value =>
      -- One that stays would be found.
      have hf : f (key, value) = false := by
        rw [← Bool.not_eq_true]
        intro hf
        have hmem := List.mem_filter.mpr ⟨mem_of_get? hbefore, hf⟩
        rw [get?_of_mem (nodup_filter h f) hmem] at hget
        exact absurd hget (by simp)
      rw [Option.filter_some, hf, if_neg Bool.false_ne_true]

end Table

end Switchboard
