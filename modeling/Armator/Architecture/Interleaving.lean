import Armator.Architecture.Replies
import Armator.Simulator.Threads

namespace Armator

namespace Threads

open Mutex (Block runAll Serial)

def Ailleurs (f : Parser → Except Fault Parser) : Prop :=
  ∀ d arm, f (d.avec arm) = (f d).map fun d => d.avec arm

theorem Ailleurs.bind {f g : Parser → Except Fault Parser} (hf : Ailleurs f) (hg : Ailleurs g) :
    Ailleurs fun d => f d >>= g := by
  intro d arm
  change f (d.avec arm) >>= g = (f d >>= g).map _
  rw [hf]
  cases f d with
  | error e => rfl
  | ok d => exact hg d arm

theorem ecrireBuffer_avec (d : Parser) (arm : ArmCore) (i : Nat) (c : Byte) :
    (d.avec arm).ecrireBuffer i c = (d.ecrireBuffer i c).map fun d => d.avec arm := by
  rw [Parser.ecrireBuffer, Parser.ecrireBuffer]
  split <;> rfl

theorem handleError_ailleurs : Ailleurs Parser.handleError := by
  intro d arm
  rw [Parser.handleError, Parser.handleError]
  change (if d.len ≠ 0 then (d.avec arm).ecrireBuffer d.len 0 >>= _ else _) = _
  split
  · rw [ecrireBuffer_avec]
    cases d.ecrireBuffer d.len 0 <;> rfl
  · rfl

theorem addCharacterToError_ailleurs (c : Byte) :
    Ailleurs fun d => d.addCharacterToError c := by
  intro d arm
  have hstore : Ailleurs fun d => ({ d with len := d.len + 1 } : Parser).ecrireBuffer d.len c :=
    fun d arm => ecrireBuffer_avec { d with len := d.len + 1 } arm d.len c
  change (d.avec arm).addCharacterToError c = (d.addCharacterToError c).map _
  rw [Parser.addCharacterToError, Parser.addCharacterToError]
  change (if d.len > MAX_ERROR_SIZE - 2 then _ else _) = _
  split
  · exact (handleError_ailleurs.bind hstore) d arm
  · exact hstore d arm

theorem surGdb_ailleurs {f : Gdb → Except Fault Gdb}
    (hf : ∀ g arm, f { g with arm := arm } = (f g).map fun g => { g with arm := arm }) :
    Ailleurs (surGdb f) := by
  intro d arm
  change (f { d.gdb with arm := arm } >>= _) = (f d.gdb >>= _).map _
  rw [hf]
  cases f d.gdb <;> rfl

theorem surGdb_pure_ailleurs {f : Gdb → Gdb}
    (hf : ∀ (g : Gdb) arm, f { g with arm := arm } = { f g with arm := arm }) :
    Ailleurs (surGdb fun g => .ok (f g)) :=
  surGdb_ailleurs fun g arm => congrArg Except.ok (hf g arm)

theorem gdbSendData_ailleurs (data : Texte) : Ailleurs (surGdb fun g => g.gdbSendData data) := by
  refine surGdb_ailleurs fun g arm => ?_
  rw [Gdb.gdbSendData_eq, Gdb.gdbSendData_eq]
  split <;> rfl

def joint (p : Except Fault Parser × ArmCore) : Except Fault Parser := p.1.map fun d => d.avec p.2

def enchainer (fs : List (Parser → Except Fault Parser)) (d : Parser) : Except Fault Parser :=
  fs.foldl (fun r f => r >>= f) (.ok d)

theorem runAll_prive (fs : List (Parser → Except Fault Parser)) (r : Except Fault Parser) :
    runAll (fs.map prive) r = fs.foldl (fun r f => r >>= f) r := by
  rw [runAll, List.foldl_map]
  rfl

theorem enchainer_ailleurs {fs : List (Parser → Except Fault Parser)}
    (hfs : ∀ f ∈ fs, Ailleurs f) : Ailleurs (enchainer fs) := by
  induction fs using List.reverseRecOn with
  | nil =>
      intro d arm
      rfl
  | append_singleton fs f ih =>
      have hlast : enchainer (fs ++ [f]) = fun d => enchainer fs d >>= f := by
        funext d
        rw [enchainer, List.foldl_append]
        rfl
      rw [hlast]
      exact (ih fun g hg => hfs g (List.mem_append_left _ hg)).bind
        (hfs f (List.mem_append_right _ (List.mem_singleton_self f)))

theorem joint_prive (fs : List (Parser → Except Fault Parser)) (hfs : ∀ f ∈ fs, Ailleurs f)
    (d : Parser) (arm : ArmCore) :
    joint (Block.run ⟨fs.map prive, none⟩ (.ok d, arm)) = enchainer fs (d.avec arm) := by
  have h := enchainer_ailleurs hfs d arm
  rw [h, Block.run]
  dsimp only
  rw [runAll_prive]
  rfl

theorem joint_acces (fs : List (Parser → Except Fault Parser)) (hfs : ∀ f ∈ fs, Ailleurs f)
    (f : Parser → Except Fault Parser) (d : Parser) (arm : ArmCore) :
    joint (Block.run ⟨fs.map prive, some [acces f]⟩ (.ok d, arm)) =
      enchainer fs (d.avec arm) >>= f := by
  have h := enchainer_ailleurs hfs d arm
  rw [h, Block.run]
  dsimp only
  rw [runAll_prive]
  change joint (acces f (enchainer fs d, arm)) = _
  cases enchainer fs d with
  | error e => rfl
  | ok d =>
      change joint (acces f (.ok d, arm)) = f (d.avec arm)
      simp only [acces]
      cases f (d.avec arm) <;> rfl

theorem gdbPacketAnalysis_eq (handler : Byte → Option Gdb.Handler) (c : Call) (g : Gdb)
    (packet : Texte) (length : Nat) :
    g.gdbPacketAnalysis handler c packet length =
      if Gdb.checksumOk c packet length then
        match handler ((Gdb.packetClos packet length).getD 1 0) with
        | some f => f c g.gdbSendAck ((Gdb.packetClos packet length).drop 2)
        | none => g.gdbSendAck.gdbSendData (texte "")
      else .ok g.gdbRequireRetransmission := by
  rw [Gdb.gdbPacketAnalysis, Gdb.checksumOk, Gdb.packetClos]
  dsimp only
  simp only [decide_eq_true_eq]
  rfl

theorem transmit_ailleurs : Ailleurs (surGdb fun g => .ok g.gdbTransmitPacket) :=
  surGdb_pure_ailleurs fun _ _ => rfl

theorem ack_ailleurs : Ailleurs (surGdb fun g => .ok g.gdbSendAck) :=
  surGdb_pure_ailleurs fun _ _ => rfl

theorem require_ailleurs : Ailleurs (surGdb fun g => .ok g.gdbRequireRetransmission) :=
  surGdb_pure_ailleurs fun _ _ => rfl

theorem surGdb_bind (r : Except Fault Parser) (f g : Gdb → Except Fault Gdb) :
    (r >>= surGdb f) >>= surGdb g = r >>= surGdb fun x => f x >>= g := by
  cases r with
  | error e => rfl
  | ok d =>
      change (f d.gdb >>= _) >>= surGdb g = (f d.gdb >>= g) >>= _
      cases f d.gdb <;> rfl

theorem trame_action (handler : Byte → Option Gdb.Handler) (text suite : Texte) (call : Call)
    (d : Parser) {f : Gdb → Except Fault Gdb}
    (hf : ∀ g : Gdb, g.gdbPacketAnalysis handler call (text ++ 0 :: suite) text.length = f g) :
    d.action handler (.trame text suite call) = d.handleError >>= surGdb f := by
  have hfun : f = fun g : Gdb =>
      g.gdbPacketAnalysis handler call (text ++ 0 :: suite) text.length :=
    funext fun g => (hf g).symm
  rw [hfun]
  rfl

theorem joint_jeton (handler : Byte → Option Gdb.Handler) (t : Jeton) (d : Parser)
    (arm : ArmCore) :
    joint ((jeton handler t).run (.ok d, arm)) = (d.avec arm).action handler t := by
  have hhead := handleError_ailleurs
  cases t with
  | plus => exact joint_prive [Parser.handleError] (List.forall_mem_singleton.mpr hhead) d arm
  | moins =>
      exact joint_prive [Parser.handleError, surGdb fun g => .ok g.gdbTransmitPacket]
        (List.forall_mem_cons.mpr ⟨hhead, List.forall_mem_singleton.mpr transmit_ailleurs⟩) d arm
  | autre c =>
      exact joint_prive [fun d => d.addCharacterToError c]
        (List.forall_mem_singleton.mpr (addCharacterToError_ailleurs c)) d arm
  | ligne => rfl
  | trame text suite call =>
      rw [jeton]
      dsimp only
      by_cases hc : Gdb.checksumOk call (text ++ 0 :: suite) text.length = true
      · rw [if_pos hc]
        cases hh : handler ((Gdb.packetClos (text ++ 0 :: suite) text.length).getD 1 0) with
        | some f =>
            refine (joint_acces [Parser.handleError, surGdb fun g => .ok g.gdbSendAck]
              (List.forall_mem_cons.mpr ⟨hhead, List.forall_mem_singleton.mpr ack_ailleurs⟩)
              _ d arm).trans ?_
            refine (surGdb_bind (d.avec arm).handleError _ _).trans (trame_action _ _ _ _ _ ?_).symm
            intro g
            rw [gdbPacketAnalysis_eq, if_pos hc, hh]
            rfl
        | none =>
            refine (joint_prive [Parser.handleError, surGdb fun g => .ok g.gdbSendAck,
              surGdb fun g => g.gdbSendData (texte "")] (List.forall_mem_cons.mpr ⟨hhead,
                List.forall_mem_cons.mpr ⟨ack_ailleurs,
                  List.forall_mem_singleton.mpr (gdbSendData_ailleurs _)⟩⟩) d arm).trans ?_
            refine (surGdb_bind (d.avec arm).handleError _ _).trans (trame_action _ _ _ _ _ ?_).symm
            intro g
            rw [gdbPacketAnalysis_eq, if_pos hc, hh]
            rfl
      · rw [if_neg hc]
        refine (joint_prive [Parser.handleError, surGdb fun g => .ok g.gdbRequireRetransmission]
          (List.forall_mem_cons.mpr ⟨hhead, List.forall_mem_singleton.mpr require_ailleurs⟩)
          d arm).trans (trame_action _ _ _ _ _ ?_).symm
        intro g
        rw [gdbPacketAnalysis_eq, if_neg hc]

theorem stops_prive (f : Parser → Except Fault Parser) (r : Except Fault Parser)
    (hr : arrete .gdb r) : prive f r = r := by
  obtain ⟨e, rfl⟩ := hr
  rfl

theorem stops_acces (f : Parser → Except Fault Parser) (p : Except Fault Parser × ArmCore)
    (hp : arrete .gdb p.1) : acces f p = p := by
  obtain ⟨r, arm⟩ := p
  obtain ⟨e, he⟩ := hp
  cases he
  rfl

theorem stops_prives (fs : List (Parser → Except Fault Parser)) :
    (⟨fs.map prive, none⟩ : Block (Except Fault Parser) ArmCore).Stops (arrete .gdb) :=
  ⟨List.forall_mem_map.mpr fun f _ => stops_prive f, fun _ h => nomatch h⟩

theorem stops_appel (fs : List (Parser → Except Fault Parser)) (f : Parser → Except Fault Parser) :
    (⟨fs.map prive, some [acces f]⟩ : Block (Except Fault Parser) ArmCore).Stops (arrete .gdb) := by
  refine ⟨List.forall_mem_map.mpr fun f _ => stops_prive f, fun as has => ?_⟩
  cases has
  exact List.forall_mem_singleton.mpr (stops_acces f)

theorem jeton_stops (handler : Byte → Option Gdb.Handler) (t : Jeton) :
    (jeton handler t).Stops (arrete .gdb) := by
  cases t with
  | plus => exact stops_prives [Parser.handleError]
  | moins => exact stops_prives [Parser.handleError, surGdb fun g => .ok g.gdbTransmitPacket]
  | autre c => exact stops_prives [fun d => d.addCharacterToError c]
  | ligne => exact stops_prives []
  | trame text suite call =>
      rw [jeton]
      dsimp only
      split
      · split
        · exact stops_appel [Parser.handleError, surGdb fun g => .ok g.gdbSendAck] _
        · exact stops_prives [Parser.handleError, surGdb fun g => .ok g.gdbSendAck,
            surGdb fun g => g.gdbSendData (texte "")]
      · exact stops_prives [Parser.handleError, surGdb fun g => .ok g.gdbRequireRetransmission]

theorem joint_jeton_any (handler : Byte → Option Gdb.Handler) (t : Jeton)
    (r : Except Fault Parser) (arm : ArmCore) :
    joint ((jeton handler t).run (r, arm)) = joint (r, arm) >>= fun d => d.action handler t := by
  cases r with
  | error e =>
      have hrun : (jeton handler t).run (.error e, arm) = (.error e, arm) :=
        (jeton_stops handler t).run ⟨e, rfl⟩
      rw [hrun]
      rfl
  | ok d => exact joint_jeton handler t d arm

theorem joint_interruption (handler : Byte → Option Gdb.Handler) (h : Host) (e : Byte) (u : Unit)
    (r : Except Fault Parser) (arm : ArmCore) :
    joint (r, ((interruption h e).run (u, arm)).2) =
      joint (r, arm) >>= fun d => Tour.pas handler d (.irq h e) := by
  cases r with
  | error e => rfl
  | ok d => rfl

-- However the work on each token and on each interrupt is cut into accesses; an access that does
-- not return is the last of its cut.
structure Decoupe (handler : Byte → Option Gdb.Handler) (ts : List Jeton)
    (es : List (Host × Byte)) (bs : List (Block (Except Fault Parser) ArmCore))
    (cs : List (Block Unit ArmCore)) : Prop where
  gdb : List.Forall₂ (fun t b => b.run = (jeton handler t).run) ts bs
  irq : List.Forall₂ (fun e b => b.run = (interruption e.1 e.2).run) es cs
  stops : ∀ b ∈ bs, b.Stops (arrete .gdb)

theorem Decoupe.demarrer {handler : Byte → Option Gdb.Handler} {ts : List Jeton}
    {es : List (Host × Byte)} {bs : List (Block (Except Fault Parser) ArmCore)}
    {cs : List (Block Unit ArmCore)} (h : Decoupe handler ts es bs cs) (d : Parser) :
    (∀ i, ¬ arrete i ((demarrer d bs cs).mine i)) ∧
      ∀ i, ∀ b ∈ (demarrer d bs cs).program i, b.Stops (arrete i) := by
  refine ⟨fun i => ?_, fun i => ?_⟩
  · cases i with
    | gdb => rintro ⟨e, he⟩; cases he
    | irq => exact id
  · cases i with
    | gdb => exact h.stops
    | irq => exact fun b _ => ⟨fun _ _ _ hh => hh.elim, fun _ _ _ _ _ hh => hh.elim⟩

end Threads

namespace Tour

theorem jetons_append (es fs : List Tour) : jetons (es ++ fs) = jetons es ++ jetons fs := by
  induction es with
  | nil => rfl
  | cons e es ih =>
      cases e with
      | jeton t => exact congrArg (List.cons t) ih
      | irq h e => exact ih

theorem irqs_append (es fs : List Tour) : irqs (es ++ fs) = irqs es ++ irqs fs := by
  induction es with
  | nil => rfl
  | cons e es ih =>
      cases e with
      | jeton t => exact ih
      | irq h e => exact congrArg (List.cons (h, e)) ih

@[simp] theorem jetons_map_jeton (ts : List Jeton) : jetons (ts.map .jeton) = ts := by
  induction ts with
  | nil => rfl
  | cons t ts ih => exact congrArg (List.cons t) ih

@[simp] theorem irqs_map_jeton (ts : List Jeton) : irqs (ts.map .jeton) = [] := by
  induction ts with
  | nil => rfl
  | cons t ts ih => exact ih

@[simp] theorem jetons_map_irq (es : List (Host × Byte)) :
    jetons (es.map fun e => .irq e.1 e.2) = [] := by
  induction es with
  | nil => rfl
  | cons e es ih => exact ih

@[simp] theorem irqs_map_irq (es : List (Host × Byte)) :
    irqs (es.map fun e => .irq e.1 e.2) = es := by
  induction es with
  | nil => rfl
  | cons e es ih => exact congrArg (List.cons e) ih

-- What is left once `evs` is taken may come in any order, here the tokens first.
def reste (ts : List Jeton) (es : List (Host × Byte)) : List Tour :=
  ts.map .jeton ++ es.map fun e => .irq e.1 e.2

theorem jetons_reste (ts : List Jeton) (es : List (Host × Byte)) : jetons (reste ts es) = ts := by
  simp [reste, jetons_append]

theorem irqs_reste (ts : List Jeton) (es : List (Host × Byte)) : irqs (reste ts es) = es := by
  simp [reste, irqs_append]

end Tour

namespace Threads

open Mutex (Block Config Done Ended Refines Serial Step)
open Relation (ReflTransGen)

structure Avance (handler : Byte → Option Gdb.Handler) (d : Parser) (evs : List Tour)
    (a : Serial Fil.Etat ArmCore) (ts : List Jeton) (es : List (Host × Byte)) : Prop where
  gdb : ∃ ts', ts = Tour.jetons evs ++ ts' ∧
    List.Forall₂ (fun t (b : Block (Except Fault Parser) ArmCore) =>
      b.run = (jeton handler t).run) ts' (a.program .gdb)
  irq : ∃ es', es = Tour.irqs evs ++ es' ∧
    List.Forall₂ (fun e (b : Block Unit ArmCore) =>
      b.run = (interruption e.1 e.2).run) es' (a.program .irq)
  etat : joint (a.mine .gdb, a.shared) = Fallible.run (Tour.pas handler) d evs

variable {handler : Byte → Option Gdb.Handler} {d : Parser} {ts : List Jeton}
  {es : List (Host × Byte)}

theorem Avance.start {bs : List (Block (Except Fault Parser) ArmCore)}
    {cs : List (Block Unit ArmCore)} (h : Decoupe handler ts es bs cs) :
    Avance handler d [] (demarrer d bs cs) ts es :=
  ⟨⟨ts, rfl, h.gdb⟩, ⟨es, rfl, h.irq⟩, rfl⟩

theorem Avance.jeton {evs : List Tour} {a : Serial Fil.Etat ArmCore} {t : Jeton} {ts' : List Jeton}
    (h : Avance handler d evs a ts es) (hts : ts = Tour.jetons evs ++ t :: ts') :
    Avance handler d (evs ++ [.jeton t]) (a.next .gdb) ts es := by
  obtain ⟨⟨ts'', hts', hgdb⟩, ⟨es', hes, hirq⟩, hetat⟩ := h
  obtain rfl := List.append_cancel_left (hts'.symm.trans hts)
  obtain ⟨b, bs, hb, hrest, hp⟩ := List.forall₂_cons_left_iff.mp hgdb
  rw [Serial.next, hp]
  refine ⟨⟨ts', ?_, hrest⟩, ⟨es', ?_, hirq⟩, ?_⟩
  · rw [hts, Tour.jetons_append, List.append_assoc]
    rfl
  · rw [hes, Tour.irqs_append]
    exact congrArg (· ++ es') (List.append_nil _).symm
  · rw [Fallible.run_concat, ← hetat]
    have hrun := congrFun hb (a.mine .gdb, a.shared)
    exact (congrArg joint hrun).trans (joint_jeton_any handler t _ _)

theorem Avance.interruption {evs : List Tour} {a : Serial Fil.Etat ArmCore} {e : Host × Byte}
    {es' : List (Host × Byte)} (h : Avance handler d evs a ts es)
    (hes : es = Tour.irqs evs ++ e :: es') :
    Avance handler d (evs ++ [.irq e.1 e.2]) (a.next .irq) ts es := by
  obtain ⟨⟨ts', hts, hgdb⟩, ⟨es'', hes', hirq⟩, hetat⟩ := h
  obtain rfl := List.append_cancel_left (hes'.symm.trans hes)
  obtain ⟨b, bs, hb, hrest, hp⟩ := List.forall₂_cons_left_iff.mp hirq
  rw [Serial.next, hp]
  refine ⟨⟨ts', ?_, hgdb⟩, ⟨es', ?_, hrest⟩, ?_⟩
  · rw [hts, Tour.jetons_append]
    exact congrArg (· ++ ts') (List.append_nil _).symm
  · rw [hes, Tour.irqs_append, List.append_assoc]
    rfl
  · rw [Fallible.run_concat, ← hetat]
    have hrun := congrArg Prod.snd (congrFun hb (a.mine .irq, a.shared))
    exact (congrArg (fun arm => joint (a.mine .gdb, arm)) hrun).trans
      (joint_interruption handler e.1 e.2 _ _ _)

theorem Avance.next {evs : List Tour} {a : Serial Fil.Etat ArmCore} (i : Fil)
    (h : Avance handler d evs a ts es) : ∃ evs, Avance handler d evs (a.next i) ts es := by
  have hcopy := h
  obtain ⟨⟨ts', hts, hgdb⟩, ⟨es', hes, hirq⟩, _⟩ := hcopy
  cases i with
  | gdb =>
      cases ts' with
      | cons t ts'' => exact ⟨_, h.jeton hts⟩
      | nil =>
          have hp := List.forall₂_nil_left_iff.mp hgdb
          rw [Serial.next, hp]
          exact ⟨evs, h⟩
  | irq =>
      cases es' with
      | cons e es'' => exact ⟨_, h.interruption hes⟩
      | nil =>
          have hp := List.forall₂_nil_left_iff.mp hirq
          rw [Serial.next, hp]
          exact ⟨evs, h⟩

theorem Avance.fini {evs : List Tour} {a : Serial Fil.Etat ArmCore}
    (h : Avance handler d evs a ts es) :
    (∀ i, a.program i = []) ↔ ts = Tour.jetons evs ∧ es = Tour.irqs evs := by
  obtain ⟨⟨ts', hts, hgdb⟩, ⟨es', hes, hirq⟩, _⟩ := h
  constructor
  · intro hp
    rw [hp] at hgdb hirq
    obtain rfl := List.forall₂_nil_right_iff.mp hgdb
    obtain rfl := List.forall₂_nil_right_iff.mp hirq
    rw [List.append_nil] at hts hes
    exact ⟨hts, hes⟩
  · rintro ⟨hts', hes'⟩ i
    obtain rfl := List.self_eq_append_right.mp (hts'.symm.trans hts)
    obtain rfl := List.self_eq_append_right.mp (hes'.symm.trans hes)
    cases i with
    | gdb => exact List.forall₂_nil_left_iff.mp hgdb
    | irq => exact List.forall₂_nil_left_iff.mp hirq

section Orders

variable {bs : List (Block (Except Fault Parser) ArmCore)} {cs : List (Block Unit ArmCore)}

theorem Avance.run (h : Decoupe handler ts es bs cs) (order : List Fil) :
    ∃ evs, Avance handler d evs (order.foldl Serial.next (demarrer d bs cs)) ts es := by
  induction order using List.reverseRecOn with
  | nil => exact ⟨[], Avance.start h⟩
  | append_singleton order i ih =>
      obtain ⟨evs, he⟩ := ih
      rw [List.foldl_append]
      exact he.next i

theorem Avance.merge (h : Decoupe handler ts es bs cs) (evs : List Tour) (ts' : List Jeton)
    (es' : List (Host × Byte)) (hts : ts = Tour.jetons evs ++ ts')
    (hes : es = Tour.irqs evs ++ es') :
    ∃ order : List Fil,
      Avance handler d evs (order.foldl Serial.next (demarrer d bs cs)) ts es := by
  induction evs using List.reverseRecOn generalizing ts' es' with
  | nil => exact ⟨[], Avance.start h⟩
  | append_singleton evs e ih =>
      rw [Tour.jetons_append, List.append_assoc] at hts
      rw [Tour.irqs_append, List.append_assoc] at hes
      obtain ⟨order, ha⟩ := ih _ _ hts hes
      cases e with
      | jeton t =>
          refine ⟨order ++ [.gdb], ?_⟩
          rw [List.foldl_append]
          exact ha.jeton hts
      | irq host e =>
          refine ⟨order ++ [.irq], ?_⟩
          rw [List.foldl_append]
          exact ha.interruption (e := (host, e)) hes

variable {c : Config Fil.Etat ArmCore}

theorem Avance.reached (h : Decoupe handler ts es bs cs)
    (hrun : ReflTransGen (Step arrete) (demarrer d bs cs).start c) :
    ∃ evs a, Refines arrete c a ∧ Avance handler d evs a ts es := by
  obtain ⟨order, hr⟩ := Mutex.run_refines (h.demarrer d).1 hrun
  obtain ⟨evs, ha⟩ := Avance.run (d := d) h order
  exact ⟨evs, _, hr, ha⟩

theorem Avance.stopped (h : Decoupe handler ts es bs cs)
    (hrun : ReflTransGen (Step arrete) (demarrer d bs cs).start c) {e : Fault}
    (he : c.mine .gdb = .error e) :
    ∃ evs ts' es', ts = Tour.jetons evs ++ ts' ∧ es = Tour.irqs evs ++ es' ∧
      Fallible.run (Tour.pas handler) d evs = .error e := by
  obtain ⟨evs, a, hr, ha⟩ := Avance.reached h hrun
  have hfail : ∀ {evs a}, Avance handler d evs a ts es → a.mine .gdb = c.mine .gdb →
      ∃ evs ts' es', ts = Tour.jetons evs ++ ts' ∧ es = Tour.irqs evs ++ es' ∧
        Fallible.run (Tour.pas handler) d evs = .error e := by
    intro evs a ha hmine
    obtain ⟨ts', hts, _⟩ := ha.gdb
    obtain ⟨es', hes, _⟩ := ha.irq
    refine ⟨evs, ts', es', hts, hes, ?_⟩
    rw [← ha.etat, hmine, he]
    rfl
  have hstops := (Mutex.run_stops hrun (Mutex.Config.stops_start (h.demarrer d).2)).phase .gdb
  rcases hr.halts hstops ⟨e, he⟩ with hmine | hmine
  · exact hfail ha hmine
  · obtain ⟨evs', ha'⟩ := ha.next .gdb
    exact hfail ha' hmine

theorem run_error_append {e : Fault} {evs : List Tour}
    (h : Fallible.run (Tour.pas handler) d evs = .error e) (rest : List Tour) :
    Fallible.run (Tour.pas handler) d (evs ++ rest) = .error e := by
  rw [Fallible.run_append, h]
  rfl

theorem ended_merge (h : Decoupe handler ts es bs cs)
    (hrun : ReflTransGen (Step arrete) (demarrer d bs cs).start c) (he : Ended arrete c) :
    ∃ evs, Tour.jetons evs = ts ∧ Tour.irqs evs = es ∧
      joint (c.mine .gdb, c.shared) = Fallible.run (Tour.pas handler) d evs := by
  rcases he with hd | ⟨i, hi⟩
  · obtain ⟨evs, a, hr, ha⟩ := Avance.reached h hrun
    obtain ⟨hp, hmine, hshared⟩ := hr.done hd
    obtain ⟨hts, hes⟩ := ha.fini.mp hp
    refine ⟨evs, hts.symm, hes.symm, ?_⟩
    rw [← ha.etat, hmine, hshared]
  · cases i with
    | irq => exact hi.elim
    | gdb =>
        obtain ⟨e, he⟩ := hi
        obtain ⟨evs, ts', es', hts, hes, hfail⟩ := Avance.stopped h hrun he
        refine ⟨evs ++ Tour.reste ts' es', ?_, ?_, ?_⟩
        · rw [Tour.jetons_append, Tour.jetons_reste, hts]
        · rw [Tour.irqs_append, Tour.irqs_reste, hes]
        · rw [run_error_append hfail, he]
          rfl

theorem merge_ended (h : Decoupe handler ts es bs cs) {evs : List Tour}
    (hts : Tour.jetons evs = ts) (hes : Tour.irqs evs = es) :
    ∃ c, ReflTransGen (Step arrete) (demarrer d bs cs).start c ∧ Ended arrete c ∧
      joint (c.mine .gdb, c.shared) = Fallible.run (Tour.pas handler) d evs := by
  obtain ⟨order, ha⟩ := Avance.merge (d := d) h evs [] []
    (by rw [List.append_nil, hts]) (by rw [List.append_nil, hes])
  have hp := ha.fini.mpr ⟨hts.symm, hes.symm⟩
  obtain ⟨hlive, hstops⟩ := h.demarrer d
  obtain ⟨c, hrun, ⟨rfl, _⟩ | ⟨i, hi, hmine⟩⟩ := Mutex.serial_executes _ hlive hstops order
  · exact ⟨_, hrun, Or.inl fun i => ⟨rfl, hp i⟩, ha.etat⟩
  · refine ⟨c, hrun, Or.inr ⟨i, hi⟩, ?_⟩
    cases i with
    | irq => exact hi.elim
    | gdb =>
        rw [← ha.etat]
        obtain ⟨e, he⟩ := hi
        rw [← hmine, he]
        rfl

end Orders

end Threads

end Armator
