import Mathlib

/-!
# Substitution in a text

A text is read from left to right. Where a scanner finds a match, its replacement is put in its place, and
the text is read on after it.

## What is proved

* `sub_append` — the substitution in a text is that in its first part, when the second follows, and that in
  the second, of which a match of the first may have covered some symbols.
* `emit_congr` — what the first part gives depends on the first symbol of the second only, if the scanner is
  local and no match of the first part reaches into the second.
* `getLast?_emit` — then it also ends as it did, if no match ends there.
-/

namespace PayOps.Text

variable {α : Type}

/-- What is left after a match at the start of a text, and what is put in its place, given the symbol before
the text. -/
abbrev Scanner (α : Type) := Option α → List α → Option (List α × List α)

/-- Every match is replaced; `k` symbols are still covered by the last one. -/
def sub (find : Scanner α) : Option α → ℕ → List α → List α
  | _, _, [] => []
  | _, k + 1, x :: xs => sub find (some x) k xs
  | prev, 0, x :: xs =>
    match find prev (x :: xs) with
    | some (rest, text) => text ++ sub find (some x) (xs.length - rest.length) xs
    | none => x :: sub find (some x) 0 xs

/-- What the first part of a text gives, when `ys` follows. -/
def emit (find : Scanner α) : Option α → ℕ → List α → List α → List α
  | _, _, [], _ => []
  | _, k + 1, x :: xs, ys => emit find (some x) k xs ys
  | prev, 0, x :: xs, ys =>
    match find prev (x :: xs ++ ys) with
    | some (rest, text) => text ++ emit find (some x) ((xs ++ ys).length - rest.length) xs ys
    | none => x :: emit find (some x) 0 xs ys

/-- How many symbols of `ys` the matches of the first part cover. -/
def overlap (find : Scanner α) : Option α → ℕ → List α → List α → ℕ
  | _, k, [], _ => k
  | _, k + 1, x :: xs, ys => overlap find (some x) k xs ys
  | prev, 0, x :: xs, ys =>
    match find prev (x :: xs ++ ys) with
    | some (rest, _) => overlap find (some x) ((xs ++ ys).length - rest.length) xs ys
    | none => overlap find (some x) 0 xs ys

/-- The symbol before what follows a text. -/
def lastOf : Option α → List α → Option α
  | prev, [] => prev
  | _, x :: xs => lastOf (some x) xs

/-- A match covers something. -/
def Progress (find : Scanner α) : Prop :=
  ∀ prev xs rest text, find prev xs = some (rest, text) → rest.length < xs.length

/-- In texts that are `ok`, a match that does not reach into what follows depends only on the first symbol of
that. -/
def Local (ok : List α → Prop) (find : Scanner α) : Prop :=
  ∀ prev xs ys ys' rest text, ok xs → ys.head? = ys'.head? → find prev (xs ++ ys) = some (rest, text) →
    xs ≠ [] → ys.length ≤ rest.length → ∃ xs', rest = xs' ++ ys ∧ find prev (xs ++ ys') = some (xs' ++ ys', text)

/-- No match ends where `ys` starts. -/
def Passes (find : Scanner α) (ys : List α) : Prop :=
  ∀ prev xs rest text, find prev (xs ++ ys) = some (rest, text) → rest.length ≠ ys.length

variable {find : Scanner α} {prev : Option α} {xs ys ys' zs : List α} {k : ℕ}

/-- **Substitution in two parts.** -/
theorem sub_append : sub find prev k (xs ++ ys) =
    emit find prev k xs ys ++ sub find (lastOf prev xs) (overlap find prev k xs ys) ys := by
  induction xs generalizing prev k with
  | nil => rfl
  | cons x xs ih =>
    cases k with
    | succ k => exact ih
    | zero =>
      rw [List.cons_append, sub, emit, overlap, List.cons_append]
      cases hfind : find prev (x :: (xs ++ ys)) with
      | none => simp only [ih, List.cons_append, lastOf]
      | some m =>
        obtain ⟨rest, text⟩ := m
        simp only [ih, List.append_assoc, lastOf]

theorem overlap_append : overlap find prev k (xs ++ ys) zs =
    overlap find (lastOf prev xs) (overlap find prev k xs (ys ++ zs)) ys zs := by
  induction xs generalizing prev k with
  | nil => rfl
  | cons x xs ih =>
    cases k with
    | succ k => exact ih
    | zero =>
      rw [List.cons_append, overlap, overlap, List.cons_append, List.cons_append, List.append_assoc]
      cases hfind : find prev (x :: (xs ++ (ys ++ zs))) with
      | none => exact ih
      | some m => exact ih

theorem emit_append : emit find prev k (xs ++ ys) zs =
    emit find prev k xs (ys ++ zs) ++
      emit find (lastOf prev xs) (overlap find prev k xs (ys ++ zs)) ys zs := by
  induction xs generalizing prev k with
  | nil => rfl
  | cons x xs ih =>
    cases k with
    | succ k => exact ih
    | zero =>
      rw [List.cons_append, emit, emit, overlap, List.cons_append, List.cons_append, List.append_assoc]
      cases hfind : find prev (x :: (xs ++ (ys ++ zs))) with
      | none => simp only [ih, List.cons_append, lastOf]
      | some m => simp only [ih, List.append_assoc, lastOf]

theorem lastOf_append : lastOf prev (xs ++ ys) = lastOf (lastOf prev xs) ys := by
  induction xs generalizing prev with
  | nil => rfl
  | cons x xs ih => exact ih

theorem lastOf_eq : lastOf prev xs = xs.getLast?.or prev := by
  induction xs generalizing prev with
  | nil => rfl
  | cons x xs ih =>
    rw [lastOf, ih]
    cases xs with
    | nil => rfl
    | cons y ys => simp [List.getLast?_eq_some_getLast]

/-- What is covered is covered. -/
theorem le_overlap : k ≤ xs.length + overlap find prev k xs ys := by
  induction xs generalizing prev k with
  | nil => simp [overlap]
  | cons x xs ih =>
    cases k with
    | succ k =>
      have hle : k ≤ xs.length + overlap find (some x) k xs ys := ih
      rw [overlap, List.length_cons]
      omega
    | zero => exact Nat.zero_le _

/-- A text in which nothing is found stays as it is. -/
theorem emit_self (h : ∀ prev, ∀ x ∈ xs, ∀ zs, find prev (x :: zs) = none) :
    emit find prev 0 xs ys = xs ∧ overlap find prev 0 xs ys = 0 := by
  induction xs generalizing prev with
  | nil => exact ⟨rfl, rfl⟩
  | cons x xs ih =>
    obtain ⟨hemit, hoverlap⟩ : emit find (some x) 0 xs ys = xs ∧ overlap find (some x) 0 xs ys = 0 :=
      ih fun prev y hy => h prev y (List.mem_cons_of_mem _ hy)
    rw [emit, overlap, List.cons_append, h prev x List.mem_cons_self]
    exact ⟨congrArg (x :: ·) hemit, hoverlap⟩

/-- A match that covers exactly a text. -/
theorem sub_covered : sub find prev xs.length (xs ++ ys) = sub find (lastOf prev xs) 0 ys := by
  induction xs generalizing prev with
  | nil => rfl
  | cons x xs ih => exact ih

/-- What a text gives is made of its symbols and of replacements. -/
theorem emit_all {p : α → Prop} (hxs : ∀ x ∈ xs, p x)
    (htext : ∀ prev cs rest text, find prev cs = some (rest, text) → ∀ x ∈ text, p x) :
    ∀ x ∈ emit find prev k xs ys, p x := by
  induction xs generalizing prev k with
  | nil =>
    intro x hx
    cases hx
  | cons y xs ih =>
    have hrest : ∀ x ∈ xs, p x := fun x hx => hxs x (List.mem_cons_of_mem _ hx)
    cases k with
    | succ k => exact ih hrest
    | zero =>
      rw [emit]
      cases hfind : find prev (y :: xs ++ ys) with
      | none =>
        intro x hx
        rcases List.mem_cons.mp hx with rfl | hx
        · exact hxs x List.mem_cons_self
        · exact ih hrest x hx
      | some m =>
        intro x hx
        rcases List.mem_append.mp hx with hx | hx
        · exact htext _ _ _ _ hfind x hx
        · exact ih hrest x hx

/-- **What a text gives depends on the first symbol that follows**, where no match reaches into that. -/
theorem emit_congr {ok : List α → Prop} (hlocal : Local ok find) (hok : ∀ x xs, ok (x :: xs) → ok xs)
    (hxs : ok xs) (hhead : ys.head? = ys'.head?) (h : overlap find prev k xs ys = 0)
    (h' : overlap find prev k xs ys' = 0) : emit find prev k xs ys = emit find prev k xs ys' := by
  induction xs generalizing prev k with
  | nil => rfl
  | cons x xs ih =>
    have hrest := hok x xs hxs
    cases k with
    | succ k => exact ih hrest h h'
    | zero =>
      rw [overlap] at h h'
      rw [emit, emit]
      have inside : ∀ {zs rest : List α}, overlap find (some x) ((xs ++ zs).length - rest.length) xs zs = 0 →
          zs.length ≤ rest.length := by
        intro zs rest hzero
        have hle : (xs ++ zs).length - rest.length ≤
            xs.length + overlap find (some x) ((xs ++ zs).length - rest.length) xs zs := le_overlap
        rw [hzero, List.length_append] at hle
        omega
      cases hfind : find prev (x :: xs ++ ys) with
      | some m =>
        obtain ⟨rest, text⟩ := m
        rw [hfind] at h
        obtain ⟨xs', rfl, hfind'⟩ := hlocal prev (x :: xs) ys ys' rest text hxs hhead hfind
          (List.cons_ne_nil _ _) (inside h)
        rw [hfind'] at h' ⊢
        have hlen : (xs ++ ys).length - (xs' ++ ys).length = (xs ++ ys').length - (xs' ++ ys').length := by
          simp only [List.length_append]
          omega
        simp only at h h' ⊢
        rw [hlen] at h ⊢
        rw [ih hrest h h']
      | none =>
        cases hfind' : find prev (x :: xs ++ ys') with
        | none =>
          rw [hfind] at h
          rw [hfind'] at h'
          exact congrArg (x :: ·) (ih hrest h h')
        | some m =>
          obtain ⟨rest, text⟩ := m
          rw [hfind'] at h'
          obtain ⟨xs', rfl, hfind''⟩ := hlocal prev (x :: xs) ys' ys rest text hxs hhead.symm hfind'
            (List.cons_ne_nil _ _) (inside h')
          rw [hfind] at hfind''
          cases hfind''

/-- **What a text gives ends as the text does**, where no match ends with it. -/
theorem getLast?_emit (hprogress : Progress find) (hpasses : Passes find ys) (hk : k < xs.length)
    (h : overlap find prev k xs ys = 0) : (emit find prev k xs ys).getLast? = xs.getLast? := by
  induction xs generalizing prev k with
  | nil => cases hk
  | cons x xs ih =>
    have hlast : 0 < xs.length → (x :: xs).getLast? = xs.getLast? := by
      intro hpos
      cases xs with
      | nil => cases hpos
      | cons y ys => rfl
    cases k with
    | succ k =>
      have hk' : k < xs.length := by simpa using hk
      rw [hlast (by omega)]
      exact ih hk' h
    | zero =>
      rw [overlap] at h
      rw [emit]
      cases hfind : find prev (x :: xs ++ ys) with
      | some m =>
        obtain ⟨rest, text⟩ := m
        rw [hfind] at h
        simp only at h ⊢
        have hle : (xs ++ ys).length - rest.length ≤
            xs.length + overlap find (some x) ((xs ++ ys).length - rest.length) xs ys := le_overlap
        have hlt := hprogress _ _ _ _ hfind
        have hne := hpasses prev (x :: xs) rest text hfind
        rw [h, List.length_append] at hle
        simp only [List.cons_append, List.length_cons, List.length_append] at hlt
        have hk' : (xs ++ ys).length - rest.length < xs.length := by
          rw [List.length_append]
          omega
        have hemit := ih hk' h
        rw [hlast (by omega), ← hemit, List.getLast?_append]
        have hsome : (xs.getLast?).isSome = true := by
          cases xs with
          | nil => simp at hk'
          | cons y ys => simp
        rw [← hemit] at hsome
        exact Option.or_of_isSome hsome
      | none =>
        rw [hfind] at h
        cases xs with
        | nil => rfl
        | cons y ys' =>
          have hemit := ih (by simp) h
          rw [hlast (by simp), ← hemit]
          have hsome : ((y :: ys').getLast?).isSome = true := by simp
          rw [← hemit] at hsome
          simp only [List.getLast?_cons]
          obtain ⟨z, hz⟩ := Option.isSome_iff_exists.mp hsome
          rw [hz]
          rfl

/-! ### What a scanner may skip -/

/-- **Skipping is local**: where it does not reach into what follows, it depends on the first symbol of that. -/
theorem dropWhile_local {p : α → Bool} (xs : List α) (hhead : ys.head? = ys'.head?)
    (hle : ys.length ≤ ((xs ++ ys).dropWhile p).length) :
    (xs ++ ys).dropWhile p = xs.dropWhile p ++ ys ∧ (xs ++ ys').dropWhile p = xs.dropWhile p ++ ys' := by
  rw [List.dropWhile_append] at hle ⊢
  rw [List.dropWhile_append]
  split_ifs at hle ⊢ with hempty
  · have hys : ys.dropWhile p = ys := (List.dropWhile_suffix p).eq_of_length_le hle
    rw [List.isEmpty_iff] at hempty
    rw [hempty, hys, List.nil_append, List.nil_append]
    refine ⟨rfl, ?_⟩
    cases ys' with
    | nil => rfl
    | cons y' ys' =>
      cases ys with
      | nil => cases hhead
      | cons y ys =>
        obtain rfl : y = y' := Option.some.inj hhead
        by_cases hy : p y = true
        · have hlen := congrArg List.length hys
          rw [List.dropWhile_cons_of_pos hy] at hlen
          have := (List.dropWhile_suffix (l := ys) p).length_le
          rw [List.length_cons] at hlen
          omega
        · exact List.dropWhile_cons_of_neg hy
  · exact ⟨rfl, rfl⟩

/-- What is skipped ends where something else begins. -/
theorem dropWhile_ne {p : α → Bool} {x : α} (hx : p x = true) (l : List α) :
    l.dropWhile p ≠ x :: xs := by
  intro h
  have := List.head?_dropWhile_not p l
  rw [h] at this
  simp [hx] at this

end PayOps.Text
