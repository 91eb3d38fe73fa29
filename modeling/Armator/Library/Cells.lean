import Mathlib.Logic.Function.Basic
import Mathlib.Data.List.Induction
import Mathlib.Data.List.Nodup

namespace Cells

variable {κ ι α : Type*} [DecidableEq ι] (addr : κ → Option ι)

def read (d : α) (f : ι → α) (k : κ) : α :=
  match addr k with
  | none => d
  | some i => f i

def write (f : ι → α) (k : κ) (v : α) : ι → α :=
  match addr k with
  | none => f
  | some i => Function.update f i v

theorem write_apply (f : ι → α) (k : κ) (v : α) (i : ι) :
    write addr f k v i = if addr k = some i then v else f i := by
  unfold write
  cases addr k with
  | none => simp
  | some j =>
      by_cases h : j = i
      · subst h; simp
      · simp [h, Ne.symm h]

theorem read_write_same (d : α) (f : ι → α) (k : κ) (v : α) (h : addr k ≠ none) :
    read addr d (write addr f k v) k = v := by
  unfold read write
  cases hk : addr k with
  | none => exact absurd hk h
  | some i => simp

theorem read_write_other (d : α) (f : ι → α) (k l : κ) (v : α) (h : addr k ≠ addr l) :
    read addr d (write addr f k v) l = read addr d f l := by
  unfold read
  cases hl : addr l with
  | none => rfl
  | some j =>
      rw [hl] at h
      simp only [write_apply, if_neg h]

def hide (seen : ι → Prop) [DecidablePred seen] (g f : ι → α) : ι → α :=
  fun i => if seen i then f i else g i

section Hide

variable {seen : ι → Prop} [DecidablePred seen] {k : κ} (h : ∀ i, addr k = some i → seen i)

include h

omit [DecidableEq ι] in
theorem read_hide (d : α) (g f : ι → α) : read addr d (hide seen g f) k = read addr d f k := by
  unfold read
  cases hk : addr k with
  | none => rfl
  | some i => exact if_pos (h i hk)

theorem write_hide (g f : ι → α) (v : α) :
    write addr (hide seen g f) k v = hide seen g (write addr f k v) := by
  funext i
  simp only [hide, write_apply]
  split
  · rename_i hi
    rw [if_pos (h i hi)]
  · rfl

end Hide

theorem write_eq_self_iff (f : ι → α) (k : κ) (v : α) :
    write addr f k v = f ↔ ∀ i, addr k = some i → f i = v := by
  constructor
  · intro h i hk
    have hi := congrFun h i
    rw [write_apply, if_pos hk] at hi
    exact hi.symm
  · intro h
    funext i
    rw [write_apply]
    by_cases hk : addr k = some i
    · rw [if_pos hk, h i hk]
    · rw [if_neg hk]

theorem write_write_same (f : ι → α) (k : κ) (u v : α) :
    write addr (write addr f k u) k v = write addr f k v := by
  funext i
  simp only [write_apply]
  split <;> rfl

theorem write_comm (f : ι → α) (k l : κ) (u v : α) (h : addr k = addr l → addr k = none) :
    write addr (write addr f k u) l v = write addr (write addr f l v) k u := by
  funext i
  simp only [write_apply]
  by_cases hk : addr k = some i
  · have hl : addr l ≠ some i := by
      intro hl
      have hn := h (hk.trans hl.symm)
      rw [hk] at hn
      cases hn
    simp [hk, hl]
  · simp [hk]

theorem write_write_eq_self_iff (f : ι → α) (k l : κ) (u v : α)
    (h : addr k = addr l → addr k = none) :
    write addr (write addr f k u) l v = f ↔
      write addr f k u = f ∧ write addr f l v = f := by
  constructor
  · intro he
    have hk : write addr f k u = f := by
      rw [write_eq_self_iff]
      intro i hi
      have hl : addr l ≠ some i := by
        intro hl
        have hn := h (hi.trans hl.symm)
        rw [hi] at hn
        cases hn
      have hf := congrFun he i
      rw [write_apply, if_neg hl, write_apply, if_pos hi] at hf
      exact hf.symm
    exact ⟨hk, by rwa [hk] at he⟩
  · rintro ⟨hk, hl⟩
    rw [hk, hl]

def writeAll (f : ι → α) (kvs : List (κ × α)) : ι → α :=
  kvs.foldl (fun g kv => write addr g kv.1 kv.2) f

@[simp] theorem writeAll_nil (f : ι → α) : writeAll addr f [] = f := rfl

@[simp] theorem writeAll_cons (f : ι → α) (kv : κ × α) (kvs : List (κ × α)) :
    writeAll addr f (kv :: kvs) = writeAll addr (write addr f kv.1 kv.2) kvs := rfl

theorem writeAll_append (f : ι → α) (xs ys : List (κ × α)) :
    writeAll addr f (xs ++ ys) = writeAll addr (writeAll addr f xs) ys :=
  List.foldl_append

theorem writeAll_frame (f : ι → α) (kvs : List (κ × α)) (i : ι)
    (h : ∀ kv ∈ kvs, addr kv.1 ≠ some i) : writeAll addr f kvs i = f i := by
  induction kvs generalizing f with
  | nil => rfl
  | cons kv kvs ih =>
      rw [writeAll_cons, ih _ (fun x hx => h x (List.mem_cons_of_mem _ hx)), write_apply,
        if_neg (h kv List.mem_cons_self)]

def last (kvs : List (κ × α)) (i : ι) : Option α :=
  (kvs.reverse.find? fun kv => addr kv.1 = some i).map Prod.snd

theorem writeAll_last (f : ι → α) (kvs : List (κ × α)) (i : ι) :
    writeAll addr f kvs i = (last addr kvs i).getD (f i) := by
  induction kvs using List.reverseRecOn with
  | nil => rfl
  | append_singleton kvs kv ih =>
      rw [writeAll_append, writeAll_cons, writeAll_nil, write_apply, ih, last, last,
        List.reverse_append, List.reverse_singleton, List.singleton_append, List.find?_cons]
      by_cases h : addr kv.1 = some i <;> simp [h]

def Apart (kvs : List (κ × α)) : Prop :=
  kvs.Pairwise (fun x y => addr x.1 = addr y.1 → addr x.1 = none)

theorem writeAll_at (f : ι → α) (kvs : List (κ × α)) (hs : Apart addr kvs)
    (kv : κ × α) (hm : kv ∈ kvs) (i : ι) (hi : addr kv.1 = some i) :
    writeAll addr f kvs i = kv.2 := by
  induction kvs generalizing f with
  | nil => cases hm
  | cons x xs ih =>
      obtain ⟨hx, hxs⟩ := List.pairwise_cons.mp hs
      rw [writeAll_cons]
      rcases List.mem_cons.mp hm with rfl | hm
      · have hf : ∀ y ∈ xs, addr y.1 ≠ some i := by
          intro y hy he
          have hn := hx y hy (hi.trans he.symm)
          rw [hi] at hn
          cases hn
        rw [writeAll_frame addr _ xs i hf, write_apply, if_pos hi]
      · exact ih _ hxs hm

theorem writeAll_eq_self_iff (f : ι → α) (kvs : List (κ × α)) (hs : Apart addr kvs) :
    writeAll addr f kvs = f ↔ ∀ kv ∈ kvs, write addr f kv.1 kv.2 = f := by
  constructor
  · intro h kv hm
    rw [write_eq_self_iff]
    intro i hi
    rw [← writeAll_at addr f kvs hs kv hm i hi, h]
  · intro h
    induction kvs with
    | nil => rfl
    | cons x xs ih =>
        rw [writeAll_cons, h x List.mem_cons_self]
        exact ih (List.pairwise_cons.mp hs).2 (fun y hy => h y (List.mem_cons_of_mem _ hy))

end Cells
