import Mathlib.Algebra.BigOperators.Group.Finset.Basic
import Mathlib.Data.Fintype.Basic
import Mathlib.Logic.Function.Basic
import Mathlib.Logic.Relation

namespace Mutex

universe u v w

open Function (update)

def runAll {α : Type u} (fs : List (α → α)) (x : α) : α := fs.foldl (fun x f => f x) x

theorem runAll_append {α : Type u} (fs gs : List (α → α)) (x : α) :
    runAll (fs ++ gs) x = runAll gs (runAll fs x) := by
  rw [runAll, List.foldl_append]
  rfl

-- What a thread does at a stretch: steps on its own state, then accesses under the lock.
structure Block (Λ : Type v) (S : Type w) where
  own : List (Λ → Λ)
  guarded : Option (List (Λ × S → Λ × S))

def Block.run {Λ : Type v} {S : Type w} (b : Block Λ S) (p : Λ × S) : Λ × S :=
  match b.guarded with
  | none => (runAll b.own p.1, p.2)
  | some as => runAll as (runAll b.own p.1, p.2)

inductive Phase (Λ : Type v) (S : Type w) where
  | idle
  | preparing (own : List (Λ → Λ)) (guarded : Option (List (Λ × S → Λ × S)))
  | holding (accesses : List (Λ × S → Λ × S))

variable {ι : Type u} {L : ι → Type v} {S : Type w}

structure Serial (L : ι → Type v) (S : Type w) where
  mine : (i : ι) → L i
  shared : S
  program : (i : ι) → List (Block (L i) S)

structure Config (L : ι → Type v) (S : Type w) extends Serial L S where
  phase : (i : ι) → Phase (L i) S
  lock : Option ι

def Serial.start (a : Serial L S) : Config L S := { a with phase := fun _ => .idle, lock := none }

-- How the serial execution `a` stands to the thread `i` of `c`: a block counts as executed from
-- the moment at which it takes the lock, or at which it ends without it.
def Thread (c : Config L S) (a : Serial L S) (i : ι) : Prop :=
  match c.phase i with
  | .idle => a.program i = c.program i ∧ a.mine i = c.mine i
  | .preparing fs g => ∃ done, a.program i = ⟨done ++ fs, g⟩ :: c.program i ∧
      c.mine i = runAll done (a.mine i)
  | .holding as => a.program i = c.program i ∧
      (a.mine i, a.shared) = runAll as (c.mine i, c.shared)

def Holds (c : Config L S) (i : ι) : Prop := ∃ as, c.phase i = .holding as

def Locked (c : Config L S) (a : Serial L S) : Prop :=
  match c.lock with
  | none => a.shared = c.shared ∧ ∀ i, ¬ Holds c i
  | some j => Holds c j ∧ ∀ i, Holds c i → i = j

-- `halted` says which states a thread does not come out of any more.
structure Refines (halted : (i : ι) → L i → Prop) (c : Config L S) (a : Serial L S) : Prop where
  thread : ∀ i, Thread c a i
  locked : Locked c a
  live : ∀ i, Holds c i ∨ ¬ halted i (a.mine i)

variable {halted : (i : ι) → L i → Prop}

section Refines

variable {c c' : Config L S} {a a' : Serial L S} {i j : ι}

theorem Thread.congr (h : Thread c a j) (hp : c'.phase j = c.phase j)
    (hc : c'.program j = c.program j) (hm : c'.mine j = c.mine j) (ha : a'.program j = a.program j)
    (ham : a'.mine j = a.mine j)
    (hs : Holds c j → c'.shared = c.shared ∧ a'.shared = a.shared) : Thread c' a' j := by
  rw [Thread] at h ⊢
  rw [hp, hc, hm, ha, ham]
  cases hph : c.phase j with
  | idle =>
      rw [hph] at h
      exact h
  | preparing fs g =>
      rw [hph] at h
      exact h
  | holding as =>
      rw [hph] at h
      obtain ⟨h1, h2⟩ := hs ⟨as, hph⟩
      dsimp only
      rw [h1, h2]
      exact h

theorem Locked.congr (h : Locked c a) (hl : c'.lock = c.lock) (hh : ∀ j, Holds c' j ↔ Holds c j)
    (hs : c.lock = none → c'.shared = c.shared ∧ a'.shared = a.shared) : Locked c' a' := by
  rw [Locked] at h ⊢
  rw [hl]
  cases hk : c.lock with
  | none =>
      rw [hk] at h
      obtain ⟨h1, h2⟩ := hs hk
      refine ⟨by rw [h1, h2, h.1], fun j hj => h.2 j ((hh j).mp hj)⟩
  | some k =>
      rw [hk] at h
      exact ⟨(hh k).mpr h.1, fun j hj => h.2 j ((hh j).mp hj)⟩

theorem Refines.free (h : Refines halted c a) (hl : c.lock = none) :
    a.shared = c.shared ∧ ∀ j, ¬ Holds c j := by
  have hk := h.locked
  rwa [Locked, hl] at hk

theorem Refines.holder (h : Refines halted c a) (hi : Holds c i) :
    c.lock = some i ∧ ∀ j, Holds c j → j = i := by
  have hk := h.locked
  rw [Locked] at hk
  cases hl : c.lock with
  | none =>
      rw [hl] at hk
      exact absurd hi (hk.2 i)
  | some k =>
      rw [hl] at hk
      have hik := hk.2 i hi
      subst hik
      exact ⟨rfl, hk.2⟩

theorem Refines.outside (h : Refines halted c a) (hi : ¬ Holds c i) : ¬ halted i (a.mine i) :=
  (h.live i).resolve_left hi

theorem refines_start {a : Serial L S} (ha : ∀ i, ¬ halted i (a.mine i)) :
    Refines halted a.start a := by
  refine ⟨fun i => ⟨rfl, rfl⟩, ⟨rfl, fun i hi => ?_⟩, fun i => Or.inr (ha i)⟩
  obtain ⟨as, has⟩ := hi
  cases has

end Refines

section Steps

variable [DecidableEq ι]

def Serial.next (a : Serial L S) (i : ι) : Serial L S :=
  match a.program i with
  | [] => a
  | b :: bs =>
      { mine := update a.mine i (b.run (a.mine i, a.shared)).1
        shared := (b.run (a.mine i, a.shared)).2
        program := update a.program i bs }

-- A thread that has halted takes no step, and keeps the lock if it has it.
inductive Step (halted : (i : ι) → L i → Prop) : Config L S → Config L S → Prop
  | begins {c : Config L S} {i : ι} {b : Block (L i) S} {bs : List (Block (L i) S)}
      (hr : ¬ halted i (c.mine i)) (hp : c.phase i = .idle) (hb : c.program i = b :: bs) :
      Step halted c { c with
        program := update c.program i bs
        phase := update c.phase i (.preparing b.own b.guarded) }
  | owns {c : Config L S} {i : ι} {f : L i → L i} {fs : List (L i → L i)}
      {g : Option (List (L i × S → L i × S))} (hr : ¬ halted i (c.mine i))
      (hp : c.phase i = .preparing (f :: fs) g) :
      Step halted c { c with
        mine := update c.mine i (f (c.mine i))
        phase := update c.phase i (.preparing fs g) }
  | ends {c : Config L S} {i : ι} (hr : ¬ halted i (c.mine i)) (hp : c.phase i = .preparing [] none) :
      Step halted c { c with phase := update c.phase i .idle }
  | acquires {c : Config L S} {i : ι} {as : List (L i × S → L i × S)}
      (hr : ¬ halted i (c.mine i)) (hp : c.phase i = .preparing [] (some as)) (hl : c.lock = none) :
      Step halted c { c with phase := update c.phase i (.holding as), lock := some i }
  | accesses {c : Config L S} {i : ι} {f : L i × S → L i × S} {as : List (L i × S → L i × S)}
      (hr : ¬ halted i (c.mine i)) (hp : c.phase i = .holding (f :: as)) :
      Step halted c { c with
        mine := update c.mine i (f (c.mine i, c.shared)).1
        shared := (f (c.mine i, c.shared)).2
        phase := update c.phase i (.holding as) }
  | releases {c : Config L S} {i : ι} (hr : ¬ halted i (c.mine i)) (hp : c.phase i = .holding []) :
      Step halted c { c with phase := update c.phase i .idle, lock := none }

theorem holds_update {c c' : Config L S} {i : ι} (p : Phase (L i) S)
    (hp : (∃ as, p = .holding as) ↔ Holds c i) (hc : c'.phase = update c.phase i p) (j : ι) :
    Holds c' j ↔ Holds c j := by
  rw [Holds, hc]
  by_cases hj : j = i
  · subst hj
    rw [Function.update_self]
    exact hp
  · rw [Function.update_of_ne hj]
    exact Iff.rfl

theorem Serial.next_others (a : Serial L S) (i : ι) (j : ι) (hj : j ≠ i) :
    (a.next i).program j = a.program j ∧ (a.next i).mine j = a.mine j := by
  unfold Serial.next
  split
  · exact ⟨rfl, rfl⟩
  · exact ⟨Function.update_of_ne hj _ _, Function.update_of_ne hj _ _⟩

section Cases

variable {c c' : Config L S} {a a' : Serial L S} {i : ι}

structure Moves (i : ι) (c c' : Config L S) : Prop where
  phase : ∀ j, j ≠ i → c'.phase j = c.phase j
  program : ∀ j, j ≠ i → c'.program j = c.program j
  mine : ∀ j, j ≠ i → c'.mine j = c.mine j

theorem Moves.phased (p : Phase (L i) S) (lock : Option ι) :
    Moves i c { c with phase := update c.phase i p, lock := lock } :=
  ⟨fun _ hj => Function.update_of_ne hj _ _, fun _ _ => rfl, fun _ _ => rfl⟩

theorem Refines.moved (h : Refines halted c a) (hc : Moves i c c')
    (ha : ∀ j, j ≠ i → a'.program j = a.program j ∧ a'.mine j = a.mine j)
    (hs : ∀ j, j ≠ i → Holds c j → c'.shared = c.shared ∧ a'.shared = a.shared)
    (ht : Thread c' a' i) (hl : Locked c' a') (hv : Holds c' i ∨ ¬ halted i (a'.mine i)) :
    Refines halted c' a' := by
  refine ⟨fun j => ?_, hl, fun j => ?_⟩
  · by_cases hj : j = i
    · rw [hj]
      exact ht
    · exact (h.thread j).congr (hc.phase j hj) (hc.program j hj) (hc.mine j hj) (ha j hj).1
        (ha j hj).2 (hs j hj)
  · by_cases hj : j = i
    · rw [hj]
      exact hv
    · rw [Holds, hc.phase j hj, (ha j hj).2]
      exact h.live j

theorem Refines.begins (h : Refines halted c a) {b : Block (L i) S} {bs : List (Block (L i) S)}
    (hp : c.phase i = .idle) (hb : c.program i = b :: bs) :
    Refines halted { c with
      program := update c.program i bs
      phase := update c.phase i (.preparing b.own b.guarded) } a := by
  have ht := h.thread i
  rw [Thread, hp] at ht
  refine h.moved (i := i) ⟨?_, ?_, fun _ _ => rfl⟩ (fun _ _ => ⟨rfl, rfl⟩) (fun _ _ _ => ⟨rfl, rfl⟩)
    ?_ (h.locked.congr rfl (holds_update _ ?_ rfl) fun _ => ⟨rfl, rfl⟩)
    (Or.inr (h.outside (by simp [Holds, hp])))
  · exact fun _ hj => Function.update_of_ne hj _ _
  · exact fun _ hj => Function.update_of_ne hj _ _
  · rw [Thread]
    simp only [Function.update_self]
    exact ⟨[], by rw [ht.1, hb]; rfl, ht.2.symm⟩
  · simp [Holds, hp]

theorem Refines.owns (h : Refines halted c a) {f : L i → L i} {fs : List (L i → L i)}
    {g : Option (List (L i × S → L i × S))} (hp : c.phase i = .preparing (f :: fs) g) :
    Refines halted { c with
      mine := update c.mine i (f (c.mine i))
      phase := update c.phase i (.preparing fs g) } a := by
  have ht := h.thread i
  rw [Thread, hp] at ht
  obtain ⟨done, hprog, hmine⟩ := ht
  refine h.moved (i := i) ⟨?_, fun _ _ => rfl, ?_⟩ (fun _ _ => ⟨rfl, rfl⟩) (fun _ _ _ => ⟨rfl, rfl⟩)
    ?_ (h.locked.congr rfl (holds_update _ ?_ rfl) fun _ => ⟨rfl, rfl⟩)
    (Or.inr (h.outside (by simp [Holds, hp])))
  · exact fun _ hj => Function.update_of_ne hj _ _
  · exact fun _ hj => Function.update_of_ne hj _ _
  · rw [Thread]
    simp only [Function.update_self]
    refine ⟨done ++ [f], by rw [hprog, List.append_assoc]; rfl, ?_⟩
    rw [runAll_append, ← hmine]
    rfl
  · simp [Holds, hp]

theorem Refines.ends (h : Refines halted c a) (hr : ¬ halted i (c.mine i))
    (hp : c.phase i = .preparing [] none) :
    ∃ b bs, a.program i = b :: bs ∧
      Refines halted { c with phase := update c.phase i .idle } (a.next i) := by
  have ht := h.thread i
  rw [Thread, hp] at ht
  obtain ⟨done, hprog, hmine⟩ := ht
  rw [List.append_nil] at hprog
  have hrun : Block.run ⟨done, none⟩ (a.mine i, a.shared) = (c.mine i, a.shared) := by
    rw [Block.run, hmine]
  have hshared : (a.next i).shared = a.shared := by
    rw [Serial.next, hprog]
    dsimp only
    rw [hrun]
  have hend : (a.next i).mine i = c.mine i := by
    rw [Serial.next, hprog]
    simp only [Function.update_self, hrun]
  refine ⟨_, _, hprog, h.moved (i := i) (.phased _ c.lock) (a.next_others i)
    (fun _ _ _ => ⟨rfl, hshared⟩) ?_ (h.locked.congr rfl (holds_update _ ?_ rfl) fun _ =>
      ⟨rfl, hshared⟩) (Or.inr (by rwa [hend]))⟩
  · rw [Thread, Serial.next, hprog]
    simp only [Function.update_self, hrun]
    exact ⟨trivial, trivial⟩
  · simp [Holds, hp]

theorem Refines.acquires (h : Refines halted c a) {as : List (L i × S → L i × S)}
    (hp : c.phase i = .preparing [] (some as)) (hl : c.lock = none) :
    ∃ b bs, a.program i = b :: bs ∧
      Refines halted { c with phase := update c.phase i (.holding as), lock := some i } (a.next i) := by
  have ht := h.thread i
  rw [Thread, hp] at ht
  obtain ⟨done, hprog, hmine⟩ := ht
  rw [List.append_nil] at hprog
  obtain ⟨hshared, hfree⟩ := h.free hl
  have hrun : Block.run ⟨done, some as⟩ (a.mine i, a.shared) =
      runAll as (c.mine i, c.shared) := by
    rw [Block.run, hmine, hshared]
  refine ⟨_, _, hprog, h.moved (i := i) (.phased _ _) (a.next_others i)
    (fun j _ hk => absurd hk (hfree j)) ?_ ?_ (Or.inl ⟨as, Function.update_self _ _ _⟩)⟩
  · rw [Thread, Serial.next, hprog]
    simp only [Function.update_self, hrun]
    exact ⟨trivial, trivial⟩
  · rw [Locked]
    refine ⟨⟨as, Function.update_self _ _ _⟩, fun j hj => ?_⟩
    by_contra hne
    obtain ⟨bs, hb⟩ := hj
    refine hfree j ⟨bs, ?_⟩
    rw [← hb]
    exact (Function.update_of_ne hne _ _).symm

theorem Refines.accesses (h : Refines halted c a) {f : L i × S → L i × S}
    {as : List (L i × S → L i × S)} (hp : c.phase i = .holding (f :: as)) :
    Refines halted { c with
      mine := update c.mine i (f (c.mine i, c.shared)).1
      shared := (f (c.mine i, c.shared)).2
      phase := update c.phase i (.holding as) } a := by
  have ht := h.thread i
  rw [Thread, hp] at ht
  obtain ⟨hlock, honly⟩ := h.holder ⟨f :: as, hp⟩
  refine h.moved (i := i) ⟨?_, fun _ _ => rfl, ?_⟩ (fun _ _ => ⟨rfl, rfl⟩)
    (fun j hj hk => absurd (honly j hk) hj) ?_
    (h.locked.congr rfl (holds_update _ ?_ rfl) fun hn => ?_)
    (Or.inl ⟨as, Function.update_self _ _ _⟩)
  · exact fun _ hj => Function.update_of_ne hj _ _
  · exact fun _ hj => Function.update_of_ne hj _ _
  · rw [Thread]
    simp only [Function.update_self]
    exact ht
  · simp [Holds, hp]
  · rw [hlock] at hn
    cases hn

theorem Refines.releases (h : Refines halted c a) (hr : ¬ halted i (c.mine i))
    (hp : c.phase i = .holding []) :
    Refines halted { c with phase := update c.phase i .idle, lock := none } a := by
  have ht := h.thread i
  rw [Thread, hp] at ht
  obtain ⟨hlock, honly⟩ := h.holder ⟨[], hp⟩
  obtain ⟨hprog, hpair⟩ := ht
  have hmine : a.mine i = c.mine i := congrArg Prod.fst hpair
  have hshared : a.shared = c.shared := congrArg Prod.snd hpair
  refine h.moved (i := i) (.phased _ _) (fun _ _ => ⟨rfl, rfl⟩)
    (fun j hj hk => absurd (honly j hk) hj) ?_ ?_ (Or.inr (by rwa [hmine]))
  · rw [Thread]
    simp only [Function.update_self]
    exact ⟨hprog, hmine⟩
  · rw [Locked]
    refine ⟨hshared, fun j hj => ?_⟩
    obtain ⟨bs, hb⟩ := hj
    by_cases hj : j = i
    · subst hj
      simp at hb
    · refine hj (honly j ⟨bs, ?_⟩)
      rw [← hb]
      exact (Function.update_of_ne hj _ _).symm

end Cases

theorem Step.refines {c c' : Config L S} {a : Serial L S} (hs : Step halted c c')
    (h : Refines halted c a) : Refines halted c' a ∨
      ∃ i b bs, a.program i = b :: bs ∧ Refines halted c' (a.next i) := by
  cases hs with
  | begins hr hp hb => exact Or.inl (h.begins hp hb)
  | owns hr hp => exact Or.inl (h.owns hp)
  | ends hr hp => exact Or.inr ⟨_, h.ends hr hp⟩
  | acquires hr hp hl => exact Or.inr ⟨_, h.acquires hp hl⟩
  | accesses hr hp => exact Or.inl (h.accesses hp)
  | releases hr hp => exact Or.inl (h.releases hr hp)

end Steps

section Stops

-- Nothing is left to do for a thread that has halted: its steps leave everything as it is.
def Block.Stops {Λ : Type v} {S : Type w} (halted : Λ → Prop) (b : Block Λ S) : Prop :=
  (∀ f ∈ b.own, ∀ x, halted x → f x = x) ∧
    ∀ as ∈ b.guarded, ∀ f ∈ as, ∀ p, halted p.1 → f p = p

def Phase.Stops {Λ : Type v} {S : Type w} (halted : Λ → Prop) : Phase Λ S → Prop
  | .idle => True
  | .preparing fs g => Block.Stops halted ⟨fs, g⟩
  | .holding as => Block.Stops halted ⟨[], some as⟩

structure Config.Stops (halted : (i : ι) → L i → Prop) (c : Config L S) : Prop where
  program : ∀ i, ∀ b ∈ c.program i, b.Stops (halted i)
  phase : ∀ i, (c.phase i).Stops (halted i)

theorem Config.stops_start {a : Serial L S} (ha : ∀ i, ∀ b ∈ a.program i, b.Stops (halted i)) :
    a.start.Stops halted :=
  ⟨ha, fun _ => trivial⟩

theorem runAll_fixed {α : Type u} {fs : List (α → α)} {x : α} (h : ∀ f ∈ fs, f x = x) :
    runAll fs x = x := by
  induction fs with
  | nil => rfl
  | cons f fs ih =>
      obtain ⟨hf, hfs⟩ := List.forall_mem_cons.mp h
      change runAll fs (f x) = x
      rw [hf]
      exact ih hfs

theorem Block.Stops.run {Λ : Type v} {S : Type w} {stopped : Λ → Prop} {b : Block Λ S}
    (h : b.Stops stopped) {p : Λ × S} (hp : stopped p.1) : b.run p = p := by
  have hown : runAll b.own p.1 = p.1 := runAll_fixed fun f hf => h.1 f hf p.1 hp
  rw [Block.run, hown]
  cases hg : b.guarded with
  | none => rfl
  | some as => exact runAll_fixed fun f hf => h.2 as hg f hf p hp

-- What a halt in the middle of a block leaves is what the whole block leaves.
theorem Refines.halts {c : Config L S} {a : Serial L S} {i : ι} [DecidableEq ι]
    (h : Refines halted c a) (hs : (c.phase i).Stops (halted i)) (hh : halted i (c.mine i)) :
    a.mine i = c.mine i ∨ (a.next i).mine i = c.mine i := by
  have ht := h.thread i
  rw [Thread] at ht
  cases hp : c.phase i with
  | idle =>
      rw [hp] at ht
      exact Or.inl ht.2
  | preparing fs g =>
      rw [hp] at ht hs
      obtain ⟨done, hprog, hmine⟩ := ht
      have hrest : Block.run ⟨done ++ fs, g⟩ (a.mine i, a.shared) =
          Block.run ⟨fs, g⟩ (c.mine i, a.shared) := by
        simp only [Block.run, runAll_append, hmine]
      refine Or.inr ?_
      rw [Serial.next, hprog]
      simp only [Function.update_self]
      rw [hrest, hs.run (p := (c.mine i, a.shared)) hh]
  | holding as =>
      rw [hp] at ht hs
      refine Or.inl ?_
      have hrun : runAll as (c.mine i, c.shared) = (c.mine i, c.shared) :=
        hs.run (p := (c.mine i, c.shared)) hh
      exact congrArg Prod.fst (ht.2.trans hrun)

theorem Step.stops [DecidableEq ι] {c c' : Config L S} (h : Step halted c c')
    (hs : c.Stops halted) : c'.Stops halted := by
  have hphase (i : ι) (p : Phase (L i) S) (hp : p.Stops (halted i)) (j : ι) :
      (update c.phase i p j).Stops (halted j) :=
    (Function.forall_update_iff c.phase fun j p => Phase.Stops (halted j) p).mpr
      ⟨hp, fun j _ => hs.phase j⟩ j
  cases h with
  | @begins i b bs hr hp hb =>
      have hmem := hs.program i
      rw [hb] at hmem
      obtain ⟨hhead, htail⟩ := List.forall_mem_cons.mp hmem
      refine ⟨?_, hphase i _ hhead⟩
      exact (Function.forall_update_iff c.program
        fun j bs => ∀ b ∈ bs, Block.Stops (halted j) b).mpr ⟨htail, fun j _ => hs.program j⟩
  | @owns i f fs g hr hp =>
      have hi := hs.phase i
      rw [hp] at hi
      exact ⟨hs.program, hphase i _ ⟨fun f' hf' => hi.1 f' (List.mem_cons_of_mem f hf'), hi.2⟩⟩
  | @ends i hr hp => exact ⟨hs.program, hphase i _ trivial⟩
  | @acquires i as hr hp hl =>
      have hi := hs.phase i
      rw [hp] at hi
      exact ⟨hs.program, hphase i _ hi⟩
  | @accesses i f as hr hp =>
      have hi := hs.phase i
      rw [hp] at hi
      refine ⟨hs.program, hphase i _ ⟨fun _ hf => (List.not_mem_nil hf).elim, fun bs hbs => ?_⟩⟩
      cases hbs
      exact fun f' hf' => hi.2 _ rfl f' (List.mem_cons_of_mem f hf')
  | @releases i hr hp => exact ⟨hs.program, hphase i _ trivial⟩

theorem run_stops [DecidableEq ι] {c c' : Config L S}
    (h : Relation.ReflTransGen (Step halted) c c') (hs : c.Stops halted) : c'.Stops halted := by
  induction h with
  | refl => exact hs
  | tail _ hstep ih => exact hstep.stops ih

end Stops

section Runs

open Relation (ReflTransGen)

def Done (c : Config L S) : Prop := ∀ i, c.phase i = .idle ∧ c.program i = []

-- Everything is done, or a thread has halted and the others may be waiting for the lock.
def Ended (halted : (i : ι) → L i → Prop) (c : Config L S) : Prop :=
  Done c ∨ ∃ i, halted i (c.mine i)

theorem Done.live {c : Config L S} {a : Serial L S} (hd : Done c) (h : Refines halted c a) (i : ι) :
    ¬ halted i (c.mine i) := by
  have ht := h.thread i
  rw [Thread, (hd i).1] at ht
  rw [← ht.2]
  refine h.outside ?_
  rintro ⟨as, has⟩
  rw [(hd i).1] at has
  cases has

theorem Refines.done {c : Config L S} {a : Serial L S} (h : Refines halted c a) (hd : Done c) :
    (∀ j, a.program j = []) ∧ a.mine = c.mine ∧ a.shared = c.shared := by
  have hidle : ∀ i, a.program i = c.program i ∧ a.mine i = c.mine i := by
    intro i
    have ht := h.thread i
    rwa [Thread, (hd i).1] at ht
  refine ⟨fun j => by rw [(hidle j).1, (hd j).2], funext fun i => (hidle i).2, ?_⟩
  have hk := h.locked
  rw [Locked] at hk
  cases hl : c.lock with
  | none =>
      rw [hl] at hk
      exact hk.1
  | some j =>
      rw [hl] at hk
      obtain ⟨as, has⟩ := hk.1
      rw [(hd j).1] at has
      cases has

variable [DecidableEq ι]

theorem run_refines {a : Serial L S} {c : Config L S} (ha : ∀ i, ¬ halted i (a.mine i))
    (h : ReflTransGen (Step halted) a.start c) :
    ∃ order : List ι, Refines halted c (order.foldl Serial.next a) := by
  induction h with
  | refl => exact ⟨[], refines_start ha⟩
  | tail _ hs ih =>
      obtain ⟨order, hr⟩ := ih
      rcases hs.refines hr with hr' | ⟨i, _, _, _, hr'⟩
      · exact ⟨order, hr'⟩
      · refine ⟨order ++ [i], ?_⟩
        rw [List.foldl_append]
        exact hr'

section Work

variable [Fintype ι]

def Block.cost {Λ : Type v} {S : Type w} (b : Block Λ S) : Nat :=
  b.own.length + match b.guarded with
    | none => 2
    | some as => as.length + 3

def Phase.cost {Λ : Type v} {S : Type w} : Phase Λ S → Nat
  | .idle => 0
  | .preparing fs none => fs.length + 1
  | .preparing fs (some as) => fs.length + as.length + 2
  | .holding as => as.length + 1

def cost {Λ : Type v} {S : Type w} : List (Block Λ S) → Nat
  | [] => 0
  | b :: bs => b.cost + cost bs

def Config.left (c : Config L S) (i : ι) : Nat := cost (c.program i) + (c.phase i).cost

def Config.work (c : Config L S) : Nat := ∑ i, c.left i

theorem work_of_left {c c' : Config L S} (i : ι) (hi : c'.left i + 1 = c.left i)
    (hj : ∀ j, j ≠ i → c'.left j = c.left j) : c'.work + 1 = c.work := by
  have hrest : (Finset.univ.erase i).sum c'.left = (Finset.univ.erase i).sum c.left :=
    Finset.sum_congr rfl fun j hj' => hj j (Finset.ne_of_mem_erase hj')
  have h1 : c'.left i + (Finset.univ.erase i).sum c'.left = Finset.univ.sum c'.left :=
    Finset.add_sum_erase _ _ (Finset.mem_univ i)
  have h2 : c.left i + (Finset.univ.erase i).sum c.left = Finset.univ.sum c.left :=
    Finset.add_sum_erase _ _ (Finset.mem_univ i)
  change Finset.univ.sum c'.left + 1 = Finset.univ.sum c.left
  omega

-- Every step uses up one unit of work, so that every execution ends.
theorem Step.work {c c' : Config L S} (h : Step halted c c') : c'.work + 1 = c.work := by
  cases h with
  | @begins i b bs hr hp hb =>
      refine work_of_left i ?_ fun j hj => ?_
      · simp only [Config.left, Function.update_self, hp, hb, cost, Block.cost]
        cases b.guarded with
        | none => simp only [Phase.cost]; omega
        | some as => simp only [Phase.cost]; omega
      · simp only [Config.left, Function.update_of_ne hj]
  | @owns i f fs g hr hp =>
      refine work_of_left i ?_ fun j hj => ?_
      · cases g with
        | none => simp only [Config.left, Function.update_self, hp, Phase.cost, List.length_cons]; omega
        | some as =>
            simp only [Config.left, Function.update_self, hp, Phase.cost, List.length_cons]
            omega
      · simp only [Config.left, Function.update_of_ne hj]
  | @ends i hr hp =>
      refine work_of_left i ?_ fun j hj => ?_
      · simp only [Config.left, Function.update_self, hp, Phase.cost, List.length_nil]
      · simp only [Config.left, Function.update_of_ne hj]
  | @acquires i as hr hp hl =>
      refine work_of_left i ?_ fun j hj => ?_
      · simp only [Config.left, Function.update_self, hp, Phase.cost, List.length_nil]
        omega
      · simp only [Config.left, Function.update_of_ne hj]
  | @accesses i f as hr hp =>
      refine work_of_left i ?_ fun j hj => ?_
      · simp only [Config.left, Function.update_self, hp, Phase.cost, List.length_cons]
        omega
      · simp only [Config.left, Function.update_of_ne hj]
  | @releases i hr hp =>
      refine work_of_left i ?_ fun j hj => ?_
      · simp only [Config.left, Function.update_self, hp, Phase.cost, List.length_nil]
      · simp only [Config.left, Function.update_of_ne hj]

end Work

section Schedules

def Serial.within (a : Serial L S) (i : ι) (ph : Phase (L i) S) (lock : Option ι) : Config L S :=
  { a with phase := update (fun _ => .idle) i ph, lock := lock }

theorem Serial.within_phase (a : Serial L S) (i : ι) (ph : Phase (L i) S) (lock : Option ι) :
    (a.within i ph lock).phase i = ph := by
  simp only [within, Function.update_self]

theorem own_executes (i : ι) (fs : List (L i → L i)) (g : Option (List (L i × S → L i × S)))
    (a : Serial L S) :
    ∃ done rest, fs = done ++ rest ∧ (rest = [] ∨ halted i (runAll done (a.mine i))) ∧
      ReflTransGen (Step halted) (a.within i (.preparing fs g) none)
        (Serial.within { a with mine := update a.mine i (runAll done (a.mine i)) } i
          (.preparing rest g) none) := by
  induction fs generalizing a with
  | nil =>
      refine ⟨[], [], rfl, Or.inl rfl, ?_⟩
      change ReflTransGen _ _ (Serial.within { a with mine := update a.mine i (a.mine i) } i _ _)
      rw [Function.update_eq_self]
  | cons f fs ih =>
      by_cases hr : halted i (a.mine i)
      · refine ⟨[], f :: fs, rfl, Or.inr hr, ?_⟩
        change ReflTransGen _ _ (Serial.within { a with mine := update a.mine i (a.mine i) } i _ _)
        rw [Function.update_eq_self]
      · obtain ⟨done, rest, hfs, hrest, hrun⟩ := ih { a with mine := update a.mine i (f (a.mine i)) }
        simp only [Function.update_self, Function.update_idem] at hrest hrun
        refine ⟨f :: done, rest, congrArg (List.cons f) hfs, hrest, ?_⟩
        refine .head (.owns hr (a.within_phase i (.preparing (f :: fs) g) none)) ?_
        simp only [Serial.within, Function.update_idem]
        exact hrun

theorem guarded_executes (i : ι) (as : List (L i × S → L i × S)) (a : Serial L S) :
    ∃ done rest, as = done ++ rest ∧
      (rest = [] ∨ halted i (runAll done (a.mine i, a.shared)).1) ∧
      ReflTransGen (Step halted) (a.within i (.holding as) (some i))
        (Serial.within { a with
          mine := update a.mine i (runAll done (a.mine i, a.shared)).1
          shared := (runAll done (a.mine i, a.shared)).2 } i (.holding rest) (some i)) := by
  induction as generalizing a with
  | nil =>
      refine ⟨[], [], rfl, Or.inl rfl, ?_⟩
      change ReflTransGen _ _ (Serial.within { a with mine := update a.mine i (a.mine i) } i _ _)
      rw [Function.update_eq_self]
  | cons f as ih =>
      by_cases hr : halted i (a.mine i)
      · refine ⟨[], f :: as, rfl, Or.inr hr, ?_⟩
        change ReflTransGen _ _ (Serial.within { a with mine := update a.mine i (a.mine i) } i _ _)
        rw [Function.update_eq_self]
      · obtain ⟨done, rest, has, hrest, hrun⟩ := ih { a with
          mine := update a.mine i (f (a.mine i, a.shared)).1
          shared := (f (a.mine i, a.shared)).2 }
        simp only [Function.update_self, Function.update_idem] at hrest hrun
        refine ⟨f :: done, rest, congrArg (List.cons f) has, hrest, ?_⟩
        refine .head (.accesses hr (a.within_phase i (.holding (f :: as)) (some i))) ?_
        simp only [Serial.within, Function.update_idem]
        exact hrun

theorem guarded_ends (i : ι) {as : List (L i × S → L i × S)} (a : Serial L S)
    (hs : Block.Stops (halted i) ⟨[], some as⟩) :
    ∃ c, ReflTransGen (Step halted) (a.within i (.holding as) (some i)) c ∧
      c.mine i = (runAll as (a.mine i, a.shared)).1 ∧
      (¬ halted i (c.mine i) → c = Serial.start { a with
        mine := update a.mine i (runAll as (a.mine i, a.shared)).1
        shared := (runAll as (a.mine i, a.shared)).2 }) := by
  obtain ⟨done, rest, rfl, hrest, hrun⟩ := guarded_executes i as a
  by_cases hh : halted i (runAll done (a.mine i, a.shared)).1
  · refine ⟨_, hrun, ?_, fun hn => absurd ?_ hn⟩
    · rw [runAll_append, runAll_fixed fun f hf => hs.2 _ rfl f (List.mem_append_right done hf) _ hh]
      exact Function.update_self _ _ _
    · change halted i (update a.mine i _ i)
      rwa [Function.update_self]
  · obtain rfl := hrest.resolve_right hh
    rw [List.append_nil] at hrun ⊢
    have hfree := Step.releases (by
      change ¬ halted i (update a.mine i (runAll done (a.mine i, a.shared)).1 i)
      rwa [Function.update_self]) (Serial.within_phase { a with
        mine := update a.mine i (runAll done (a.mine i, a.shared)).1
        shared := (runAll done (a.mine i, a.shared)).2 } i (.holding []) (some i))
    simp only [Serial.within, Function.update_idem, Function.update_eq_self] at hfree
    exact ⟨_, hrun.tail hfree, Function.update_self _ _ _, fun _ => rfl⟩

theorem next_executes (a : Serial L S) (i : ι) (hs : ∀ b ∈ a.program i, b.Stops (halted i))
    (hi : ¬ halted i (a.mine i)) :
    ∃ c, ReflTransGen (Step halted) a.start c ∧ c.mine i = (a.next i).mine i ∧
      (¬ halted i (c.mine i) → c = (a.next i).start) := by
  cases hb : a.program i with
  | nil =>
      rw [Serial.next, hb]
      exact ⟨a.start, .refl, rfl, fun _ => rfl⟩
  | cons b bs =>
      have hbegin : Step halted a.start
          (Serial.within { a with program := update a.program i bs } i
            (.preparing b.own b.guarded) none) :=
        Step.begins (c := a.start) hi rfl hb
      have hnext : a.next i =
          { mine := update a.mine i (b.run (a.mine i, a.shared)).1
            shared := (b.run (a.mine i, a.shared)).2
            program := update a.program i bs } := by
        rw [Serial.next, hb]
      have hstops : b.Stops (halted i) := hs b (by rw [hb]; exact List.mem_cons_self)
      obtain ⟨done, rest, hown, hrest, hrun⟩ := own_executes i b.own b.guarded
        { a with program := update a.program i bs }
      dsimp only at hrest hrun
      have hblock : b.run (a.mine i, a.shared) =
          Block.run ⟨rest, b.guarded⟩ (runAll done (a.mine i), a.shared) := by
        simp only [Block.run, hown, runAll_append]
      have hleft : Block.Stops (halted i) ⟨rest, b.guarded⟩ :=
        ⟨fun f hf => hstops.1 f (by rw [hown]; exact List.mem_append_right done hf), hstops.2⟩
      by_cases hh : halted i (runAll done (a.mine i))
      · refine ⟨_, .head hbegin hrun, ?_, fun hn => absurd ?_ hn⟩
        · rw [hnext, hblock, hleft.run (p := (runAll done (a.mine i), a.shared)) hh]
          rfl
        · change halted i (update a.mine i _ i)
          rwa [Function.update_self]
      · obtain rfl := hrest.resolve_right hh
        have hgo : ¬ halted i (update a.mine i (runAll done (a.mine i)) i) := by
          rwa [Function.update_self]
        rw [hnext, hblock, Block.run]
        cases hg : b.guarded with
        | none =>
            rw [hg] at hbegin hrun
            have hend := Step.ends hgo (Serial.within_phase { a with
              mine := update a.mine i (runAll done (a.mine i))
              program := update a.program i bs } i (.preparing [] none) none)
            simp only [Serial.within, Function.update_idem, Function.update_eq_self] at hend
            exact ⟨_, .head hbegin (hrun.tail hend), rfl, fun _ => rfl⟩
        | some as =>
            rw [hg] at hbegin hrun
            have hacquire := Step.acquires hgo (Serial.within_phase { a with
              mine := update a.mine i (runAll done (a.mine i))
              program := update a.program i bs } i (.preparing [] (some as)) none) rfl
            simp only [Serial.within, Function.update_idem] at hacquire
            obtain ⟨c, hguarded, hmine, hfree⟩ := guarded_ends i
              { a with
                mine := update a.mine i (runAll done (a.mine i))
                program := update a.program i bs } ⟨fun _ hf => (List.not_mem_nil hf).elim,
                fun as' has => hstops.2 as' (by rw [hg]; exact has)⟩
            simp only [Function.update_self, Function.update_idem] at hmine hfree
            exact ⟨c, .head hbegin (hrun.trans (.head hacquire hguarded)),
              hmine.trans (Function.update_self _ _ _).symm, hfree⟩

theorem Serial.next_halted (a : Serial L S) {i : ι} (hs : ∀ b ∈ a.program i, b.Stops (halted i))
    (hi : halted i (a.mine i)) : (a.next i).mine i = a.mine i := by
  cases hb : a.program i with
  | nil => rw [Serial.next, hb]
  | cons b bs =>
      have hrun := (hs b (by rw [hb]; exact List.mem_cons_self)).run (p := (a.mine i, a.shared)) hi
      rw [Serial.next, hb]
      simp only [Function.update_self, hrun]

theorem Serial.next_program (a : Serial L S) (i j : ι) : (a.next i).program j <:+ a.program j := by
  by_cases hj : j = i
  · subst hj
    cases hb : a.program j with
    | nil =>
        rw [Serial.next, hb, hb]
    | cons b bs =>
        rw [Serial.next, hb]
        simp only [Function.update_self]
        exact List.suffix_cons b bs
  · rw [(a.next_others i j hj).1]

theorem order_stops {a : Serial L S} (hs : ∀ i, ∀ b ∈ a.program i, b.Stops (halted i))
    (order : List ι) : ∀ i, ∀ b ∈ (order.foldl Serial.next a).program i, b.Stops (halted i) := by
  induction order generalizing a with
  | nil => exact hs
  | cons j order ih => exact ih fun i b hb => hs i b ((a.next_program j i).subset hb)

theorem serial_executes (a : Serial L S) (ha : ∀ i, ¬ halted i (a.mine i))
    (hs : ∀ i, ∀ b ∈ a.program i, b.Stops (halted i)) (order : List ι) :
    ∃ c, ReflTransGen (Step halted) a.start c ∧
      (c = (order.foldl Serial.next a).start ∧
        (∀ i, ¬ halted i ((order.foldl Serial.next a).mine i)) ∨
      ∃ i, halted i (c.mine i) ∧ c.mine i = (order.foldl Serial.next a).mine i) := by
  induction order using List.reverseRecOn with
  | nil => exact ⟨a.start, .refl, Or.inl ⟨rfl, ha⟩⟩
  | append_singleton order i ih =>
      obtain ⟨c, hrun, hc⟩ := ih
      have hleft := order_stops hs order
      rw [List.foldl_append, List.foldl_cons, List.foldl_nil]
      generalize order.foldl Serial.next a = x at hc hleft ⊢
      rcases hc with ⟨rfl, hlive⟩ | ⟨j, hj, hmine⟩
      · obtain ⟨c, hnext, hmine, hc⟩ := next_executes x i (hleft i) (hlive i)
        refine ⟨c, hrun.trans hnext, ?_⟩
        by_cases hh : halted i (c.mine i)
        · exact Or.inr ⟨i, hh, hmine⟩
        · refine Or.inl ⟨hc hh, fun j => ?_⟩
          by_cases hj : j = i
          · rw [hj, ← hmine]
            exact hh
          · rw [(x.next_others i j hj).2]
            exact hlive j
      · refine ⟨c, hrun, Or.inr ⟨j, hj, hmine.trans ?_⟩⟩
        by_cases hji : j = i
        · subst hji
          exact (x.next_halted (hleft j) (hmine ▸ hj)).symm
        · exact (x.next_others i j hji).2.symm

theorem serial_reaches (a : Serial L S) (ha : ∀ i, ¬ halted i (a.mine i))
    (hs : ∀ i, ∀ b ∈ a.program i, b.Stops (halted i)) (order : List ι)
    (hlive : ∀ i, ¬ halted i ((order.foldl Serial.next a).mine i)) :
    ReflTransGen (Step halted) a.start (order.foldl Serial.next a).start := by
  obtain ⟨c, hrun, ⟨rfl, _⟩ | ⟨i, hi, hmine⟩⟩ := serial_executes a ha hs order
  · exact hrun
  · rw [hmine] at hi
    exact absurd hi (hlive i)

end Schedules

end Runs

end Mutex
