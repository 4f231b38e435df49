import Mathlib.Data.List.AList

/-!
# Association maps: `retain`, erasing a list of keys, and the values

Operations of hash maps that `AList` lacks, each with what it does to `lookup`.
-/

namespace AList

variable {α : Type*} {β : α → Type*} [DecidableEq α]

/-- Keep the entries that satisfy `keep`. -/
def retain (keep : (a : α) → β a → Bool) (s : AList β) : AList β :=
  ⟨s.entries.filter (fun e => keep e.1 e.2), s.nodupKeys.sublist List.filter_sublist⟩

theorem lookup_retain (keep : (a : α) → β a → Bool) (s : AList β) (a : α) :
    (s.retain keep).lookup a = (s.lookup a).filter (keep a) := by
  apply Option.ext
  intro b
  have hleft : (s.retain keep).lookup a = some b ↔ ⟨a, b⟩ ∈ s.entries.filter (fun e => keep e.1 e.2) :=
    List.mem_dlookup_iff (s.retain keep).nodupKeys
  have hright : s.lookup a = some b ↔ ⟨a, b⟩ ∈ s.entries := List.mem_dlookup_iff s.nodupKeys
  rw [hleft, List.mem_filter, Option.filter_eq_some_iff, hright]

/-- Remove every key of `ks`. -/
def eraseAll (ks : List α) (s : AList β) : AList β := ks.foldl (fun s a => s.erase a) s

@[simp] theorem eraseAll_nil (s : AList β) : s.eraseAll [] = s := rfl

@[simp] theorem eraseAll_cons (k : α) (ks : List α) (s : AList β) :
    s.eraseAll (k :: ks) = (s.erase k).eraseAll ks := rfl

theorem lookup_eraseAll (ks : List α) (s : AList β) (a : α) :
    (s.eraseAll ks).lookup a = if a ∈ ks then none else s.lookup a := by
  induction ks generalizing s with
  | nil => simp
  | cons k ks ih =>
      rw [eraseAll_cons, ih]
      by_cases hak : a = k
      · subst hak
        simp
      · simp [hak, lookup_erase_ne hak]

/-- A value is under some key. -/
theorem mem_values_iff {γ : Type*} {s : AList fun _ : α => γ} {b : γ} :
    b ∈ s.entries.map (fun entry => entry.2) ↔ ∃ a, s.lookup a = some b := by
  rw [List.mem_map]
  constructor
  · rintro ⟨⟨a, b⟩, hmem, rfl⟩
    exact ⟨a, (List.mem_dlookup_iff s.nodupKeys).mpr hmem⟩
  · rintro ⟨a, hlookup⟩
    exact ⟨⟨a, b⟩, (List.mem_dlookup_iff s.nodupKeys).mp hlookup, rfl⟩

end AList
