import Mathlib

/-!
# Registers written by insertion and compare-and-set

A family of registers, one for each key, that are written in two ways only: a value is
inserted where there is none, or the present value is compared with an expected one and
replaced. The accepted writes of a key form its history of versions.

## What is proved

* `Written.getLast?_versions` — a register holds its last version.
* `Written.isChain` — if every replacement relates the old value to the new, so do
  neighbouring versions; `Written.head` — the first version was inserted.
* `Written.rank_versions` — if versions start at rank `0` and every replacement raises the
  rank by one, the ranks of the versions are `0, 1, 2, …`, so that no two versions have the
  same rank (`Written.count_rank_le_one`).
* `Written.flips_le_one` — what no replacement loses is gained by at most one.
-/

namespace PayOps.Process

variable {κ ν : Type} [DecidableEq κ]

/-- A write to a register. -/
inductive Write (κ ν : Type) where
  /-- Insert a value where there is none. -/
  | insert (k : κ) (v : ν)
  /-- Replace the value, if it is the expected one. -/
  | swap (k : κ) (old new : ν)

/-- The register written. -/
def Write.key : Write κ ν → κ
  | insert k _ => k
  | swap k _ _ => k

/-- The value written. -/
def Write.value : Write κ ν → ν
  | insert _ v => v
  | swap _ _ new => new

/-- The registers accept the write. -/
def Write.Accepted (s : κ → Option ν) : Write κ ν → Prop
  | insert k _ => s k = none
  | swap k old _ => s k = some old

/-- `Written ws s`: from empty registers, the writes `ws` were accepted one after the other
and left the registers in `s`. -/
inductive Written : List (Write κ ν) → (κ → Option ν) → Prop where
  /-- Nothing written. -/
  | nil : Written [] fun _ => none
  /-- One more accepted write. -/
  | snoc {ws : List (Write κ ν)} {s : κ → Option ν} {w : Write κ ν} : Written ws s → w.Accepted s →
      Written (ws ++ [w]) (Function.update s w.key (some w.value))

/-- The versions of register `k`, oldest first. -/
def versions (k : κ) (ws : List (Write κ ν)) : List ν :=
  ws.filterMap fun w => if w.key = k then some w.value else none

@[simp] theorem versions_nil (k : κ) : versions k ([] : List (Write κ ν)) = [] := rfl

@[simp] theorem versions_snoc_self (ws : List (Write κ ν)) (w : Write κ ν) :
    versions w.key (ws ++ [w]) = versions w.key ws ++ [w.value] := by
  simp [versions]

theorem versions_snoc_other {k : κ} (ws : List (Write κ ν)) {w : Write κ ν} (h : w.key ≠ k) :
    versions k (ws ++ [w]) = versions k ws := by
  simp [versions, h]

theorem mem_versions {k : κ} {ws : List (Write κ ν)} {v : ν} :
    v ∈ versions k ws ↔ ∃ w ∈ ws, w.key = k ∧ w.value = v := by
  simp [versions]

theorem countP_versions (k : κ) (ws : List (Write κ ν)) (A : ν → Bool) :
    (versions k ws).countP A = ws.countP fun w => w.key = k ∧ A w.value := by
  induction ws with
  | nil => rfl
  | cons w ws ih =>
    by_cases h : w.key = k
    · simp only [versions, List.filterMap_cons, h, if_true, List.countP_cons] at ih ⊢
      rw [ih]
      simp
    · simp only [versions, List.filterMap_cons, h, if_false, List.countP_cons] at ih ⊢
      rw [ih]
      simp

section Written

variable {ws : List (Write κ ν)} {s : κ → Option ν}

/-- **A register holds its last version**, and nothing if it was never written. -/
theorem Written.getLast?_versions (h : Written ws s) (k : κ) : (versions k ws).getLast? = s k := by
  induction h with
  | nil => rfl
  | @snoc ws s w _ _ ih =>
    by_cases hk : w.key = k
    · subst hk
      simp
    · rw [versions_snoc_other _ hk, ih, Function.update_of_ne (Ne.symm hk)]

/-- **Neighbouring versions are related** as every replacement relates old to new. -/
theorem Written.isChain {R : ν → ν → Prop} (h : Written ws s)
    (hR : ∀ k old new, Write.swap k old new ∈ ws → R old new) (k : κ) :
    (versions k ws).IsChain R := by
  induction h with
  | nil => exact .nil
  | @snoc ws s w hw ha ih =>
    have ih := ih fun k old new hm => hR k old new (List.mem_append_left _ hm)
    by_cases hk : w.key = k
    · subst hk
      rw [versions_snoc_self, List.isChain_append]
      refine ⟨ih, .singleton _, ?_⟩
      intro x hx y hy
      rw [Option.mem_def, hw.getLast?_versions] at hx
      obtain rfl : w.value = y := by simpa using hy
      cases w with
      | insert k v => rw [Write.Accepted] at ha; rw [Write.key, ha] at hx; cases hx
      | swap k old new =>
        rw [Write.Accepted] at ha
        rw [Write.key, ha] at hx
        cases hx
        exact hR k _ new (by simp)
    · rw [versions_snoc_other _ hk]
      exact ih

/-- The first version of a register was inserted. -/
theorem Written.head (h : Written ws s) {k : κ} {v : ν} (hv : (versions k ws).head? = some v) :
    Write.insert k v ∈ ws := by
  induction h with
  | nil => cases hv
  | @snoc ws s w hw ha ih =>
    by_cases hk : w.key = k
    · subst hk
      rw [versions_snoc_self, List.head?_append] at hv
      cases hh : (versions w.key ws).head? with
      | some v' =>
        rw [hh] at hv
        cases hv
        exact List.mem_append_left _ (ih hh)
      | none =>
        have hnil := List.head?_eq_none_iff.mp hh
        have hs := hw.getLast?_versions w.key
        rw [hnil] at hs
        cases w with
        | insert k v' =>
          rw [hh] at hv
          cases hv
          simp [Write.key, Write.value]
        | swap k old new => rw [Write.Accepted] at ha; rw [Write.key, ha] at hs; cases hs
    · rw [versions_snoc_other _ hk] at hv
      exact List.mem_append_left _ (ih hv)

/-- **Ranks count versions**: where insertions have rank `0` and replacements raise the rank by
one, the versions of a register have the ranks `0, 1, 2, …` in this order. -/
theorem Written.rank_versions (rank : ν → ℕ) (h : Written ws s)
    (h₀ : ∀ k v, Write.insert k v ∈ ws → rank v = 0)
    (h₁ : ∀ k old new, Write.swap k old new ∈ ws → rank new = rank old + 1) (k : κ) :
    (versions k ws).map rank = List.range (versions k ws).length := by
  induction h with
  | nil => rfl
  | @snoc ws s w hw ha ih =>
    have ih := ih (fun k v hm => h₀ k v (List.mem_append_left _ hm))
      fun k old new hm => h₁ k old new (List.mem_append_left _ hm)
    by_cases hk : w.key = k
    · subst hk
      rw [versions_snoc_self, List.map_append, ih, List.length_append, List.length_singleton,
        List.range_succ]
      congr 1
      have hlast := hw.getLast?_versions w.key
      cases w with
      | insert k v =>
        rw [Write.Accepted] at ha
        rw [Write.key, ha, List.getLast?_eq_none_iff] at hlast
        simp [Write.key, Write.value, hlast, h₀ k v (by simp)]
      | swap k old new =>
        rw [Write.Accepted] at ha
        rw [Write.key, ha] at hlast
        have hmap := congrArg List.getLast? ih
        rw [List.getLast?_map] at hmap
        simp only [Write.key, hlast, Option.map_some] at hmap
        have hlen : 0 < (versions k ws).length := by
          by_contra hz
          rw [List.eq_nil_of_length_eq_zero (by omega : (versions k ws).length = 0)] at hlast
          cases hlast
        rw [List.getLast?_range, if_neg (by omega)] at hmap
        have hr : rank old = (versions k ws).length - 1 := Option.some.inj hmap
        simp only [List.map_cons, List.map_nil, Write.value, Write.key, h₁ k old new (by simp), hr]
        congr 1
        omega
    · rw [versions_snoc_other _ hk]
      exact ih

/-- No two versions of a register have the same rank. -/
theorem Written.count_rank_le_one (rank : ν → ℕ) (h : Written ws s)
    (h₀ : ∀ k v, Write.insert k v ∈ ws → rank v = 0)
    (h₁ : ∀ k old new, Write.swap k old new ∈ ws → rank new = rank old + 1) (k : κ) (n : ℕ) :
    ((versions k ws).countP fun v => rank v = n) ≤ 1 := by
  have hnd : ((versions k ws).map rank).Nodup := by
    rw [h.rank_versions rank h₀ h₁ k]
    exact List.nodup_range
  have hc := List.nodup_iff_count_le_one.mp hnd n
  rw [List.count, List.countP_map] at hc
  refine le_trans (le_of_eq ?_) hc
  congr 1

/-- The write replaces a value of register `k` without `P` by one with `P`. -/
def Write.flips (k : κ) (P : ν → Bool) : Write κ ν → Bool
  | insert _ _ => false
  | swap l old new => l == k && !P old && P new

/-- **What is never lost is gained once**: where replacements keep `P`, a register gains it by at
most one replacement. -/
theorem Written.flips_le_one {P : ν → Bool} (h : Written ws s)
    (hP : ∀ k old new, Write.swap k old new ∈ ws → P old = true → P new = true) (k : κ) :
    ws.countP (Write.flips k P) ≤ 1 := by
  suffices hheld : ws.countP (Write.flips k P) ≤ if (s k).any P then 1 else 0 by
    split_ifs at hheld <;> omega
  induction h with
  | nil => simp
  | @snoc ws s w _ ha ih =>
    have ih := ih fun l old new hm => hP l old new (List.mem_append_left _ hm)
    rw [List.countP_append, List.countP_singleton]
    by_cases hk : w.key = k
    · subst hk
      rw [Function.update_self]
      cases w with
      | insert l v =>
        rw [Write.Accepted] at ha
        simp only [Write.key, ha, Option.any_none, Bool.false_eq_true, if_false] at ih
        simp only [Write.key, Write.flips, Bool.false_eq_true, if_false]
        omega
      | swap l old new =>
        rw [Write.Accepted] at ha
        have hkeep := hP l old new (by simp)
        simp only [Write.key, ha, Option.any_some] at ih
        simp only [Write.key, Write.value, Write.flips, Option.any_some, beq_self_eq_true,
          Bool.true_and]
        by_cases hold : P old = true
        · simpa [hold, hkeep hold] using ih
        · rw [if_neg hold] at ih
          by_cases hnew : P new = true
          · simp only [hold, hnew, Bool.not_false, Bool.true_and, if_true]
            omega
          · simpa [hnew] using ih
    · rw [Function.update_of_ne (Ne.symm hk)]
      have hno : Write.flips k P w = false := by
        cases w with
        | insert l v => rfl
        | swap l old new =>
          have : (l == k) = false := beq_eq_false_iff_ne.mpr hk
          simp [Write.flips, this]
      rw [hno]
      simpa using ih

end Written

end PayOps.Process
