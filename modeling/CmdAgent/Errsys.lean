import CmdAgent.ListHead
import CmdAgent.StreamLib.Mem
import CmdAgent.StreamLib.Runs
/-!
# `err.c`: the log system

Loggers are kept in `errsys_op_list`, the one added last in front. A message goes to each
whose level it reaches. Strings are bytes without a zero; the loops over the list have fuel.
-/
open StreamLib.Circular StreamLib.Mem StreamLib.Runs

namespace CmdAgent

/-! ## State -/

/-- The `struct errsys_operation`s. -/
inductive ErrsysOperation
  | printlog
  | syslog
  | filelog
  | other (n : Nat)
  deriving DecidableEq

/-- The `struct list_head`s: `errsys_op_list`, and `head` of each operation. -/
inductive ErrsysNode
  | opList
  | head (op : ErrsysOperation)
  | poison1
  | poison2
  deriving DecidableEq

/-- What the callbacks of the operation a node is in return: `errsys_init` if it is there, and
whether `errsys_rel` is. -/
structure ErrsysCallbacks where
  init : ErrsysNode → Option Int
  rel : ErrsysNode → Bool

/-- All but the list. `level` is that of the operation a node is in, `initParam` that of
`filelog_errsys_op`. The other fields are histories: what the callbacks were called for, and
what `errsys_initialize` returned. -/
structure ErrsysData where
  level : ErrsysNode → Int
  initParam : Option (List UInt8)
  output : List (ErrsysNode × List UInt8)
  opened : List ErrsysNode
  closed : List ErrsysNode
  rets : List Int

structure Errsys where
  links : Links ErrsysNode
  data : ErrsysData

/-! ## The message -/

def errsysBufSize : Nat := 256

/-- `snprintf` into `buf + off` with the given size; `none` where it writes outside `buf`. -/
def snprintf (buf : Nat → UInt8) (off size : Nat) (s : List UInt8) : Option (Nat → UInt8) :=
  if size = 0 then some buf
  else
    let out := s.take (size - 1) ++ [0]
    if off + out.length ≤ errsysBufSize then some (store buf off out) else none

/-- `255 - modlen` as a `size_t`. -/
def sizeLeft (modlen : Nat) : Nat := if modlen ≤ 255 then 255 - modlen else UInt64.size + 255 - modlen

/-- The text in `buf`, up to the first zero. -/
def cString (buf : Nat → UInt8) : List UInt8 := (slice buf 0 errsysBufSize).takeWhile (· ≠ 0)

/-- What `errsys_print` has in `buf` when it goes through the list; `text` is `fmt` with its
arguments. `none` is a write outside `buf`. -/
def errsysText (levelstr mod text : List UInt8) : Option (List UInt8) :=
  let modlen := (levelstr ++ mod).length
  (snprintf (fun _ => 0) 0 255 (levelstr ++ mod)).bind fun buf =>
    (snprintf buf modlen (sizeLeft modlen) text).map cString

/-! ## The functions -/

/-- What memory holds at `errsys_op_list` is `LIST_HEAD_INIT`. -/
def Errsys.start (h : Links ErrsysNode) (level : ErrsysNode → Int) (initParam : Option (List UInt8)) : Errsys :=
  ⟨initListHead h .opList, ⟨level, initParam, [], [], [], []⟩⟩

def errsysAddOp (s : Errsys) (op : ErrsysOperation) : Errsys :=
  { s with links := listAdd s.links (.head op) .opList }

def errsysDelOp (s : Errsys) (op : ErrsysOperation) : Errsys :=
  { s with links := listDel .poison1 .poison2 s.links (.head op) }

/-- A round of the loop of `errsys_init`; the number is `rc`. -/
def errsysInitRound (cb : ErrsysCallbacks) (s : Errsys × Int) (pos : ErrsysNode) : (Errsys × Int) × Bool :=
  match cb.init pos with
  | none => (s, true)
  | some rc => (({ s.1 with data := { s.1.data with opened := s.1.data.opened ++ [pos] } }, rc), decide (¬ rc < 0))

/-- `errsys_initialize` -/
def errsysInit (cb : ErrsysCallbacks) (n : Nat) (s : Errsys) : Option (Int × Errsys) :=
  (listForEach (fun s => s.1.links) (errsysInitRound cb) .opList n (s, (0 : Int)) (s.links.next .opList)).map fun r =>
    (if r.2 < 0 then r.2 else 0, r.1)

def errsysRelRound (cb : ErrsysCallbacks) (s : Errsys) (pos : ErrsysNode) : Errsys × Bool :=
  (if cb.rel pos then { s with data := { s.data with closed := s.data.closed ++ [pos] } } else s, true)

/-- `errsys_release` -/
def errsysRel (cb : ErrsysCallbacks) (n : Nat) (s : Errsys) : Option Errsys :=
  (listForEach Errsys.links (errsysRelRound cb) .opList n s (s.links.next .opList)).map fun s =>
    { s with links := initListHead s.links .opList }

def errsysPrintRound (level : Int) (buf : List UInt8) (s : Errsys) (pos : ErrsysNode) : Errsys × Bool :=
  (if s.data.level pos ≤ level then { s with data := { s.data with output := s.data.output ++ [(pos, buf)] } } else s,
    true)

def intMax : Nat := 0x7fffffff

def errsysPrint (n : Nat) (s : Errsys) (level : Int) (levelstr mod text : List UInt8) : Option Errsys :=
  -- For more bytes than an `int` can count `snprintf` returns a negative number.
  if 0 < (levelstr ++ mod).length ∧ (levelstr ++ mod).length ≤ intMax then
    (errsysText levelstr mod text).bind fun buf =>
      listForEach Errsys.links (errsysPrintRound level buf) .opList n s (s.links.next .opList)
  else some s

/-- An operation with its level, added. -/
def errsysFeature (s : Errsys) (op : ErrsysOperation) (level : Int) : Errsys :=
  errsysAddOp { s with data := { s.data with level := Function.update s.data.level (.head op) level } } op

def errsysFeatures (s : Errsys) (cap : Nat) (level : Int) (filename : Option (List UInt8)) : Errsys :=
  match cap with
  | 1 => errsysFeature s .printlog level
  | 2 => errsysFeature s .syslog level
  | 3 => errsysFeature { s with data := { s.data with initParam := filename } } .filelog level
  | _ => s

inductive ErrsysCall
  | features (cap : Nat) (level : Int) (filename : Option (List UInt8))
  | addOp (op : ErrsysOperation)
  | delOp (op : ErrsysOperation)
  | init
  | print (level : Int) (levelstr mod text : List UInt8)
  | release

/-- `none` is a loop that goes on for `n` rounds, or a write outside `buf`. -/
def Errsys.step (cb : ErrsysCallbacks) (n : Nat) (s : Errsys) : ErrsysCall → Option Errsys
  | .features cap level filename => some (errsysFeatures s cap level filename)
  | .addOp op => some (errsysAddOp s op)
  | .delOp op => some (errsysDelOp s op)
  | .init =>
    (errsysInit cb n s).map fun r => { r.2 with data := { r.2.data with rets := r.2.data.rets ++ [r.1] } }
  | .print level levelstr mod text => errsysPrint n s level levelstr mod text
  | .release => errsysRel cb n s

/-! ## The message in full -/

/-- The text that is printed: what comes first of all three. -/
def printedText (levelstr mod text : List UInt8) : List UInt8 := (levelstr ++ mod ++ text).take 254

theorem cString_of {buf : Nat → UInt8} {s : List UInt8} (hlen : s.length < errsysBufSize) (hs : 0 ∉ s)
    (hbuf : slice buf 0 (s.length + 1) = s ++ [0]) : cString buf = s := by
  obtain ⟨k, hk⟩ := Nat.exists_eq_add_of_lt hlen
  rw [cString, hk, show s.length + k + 1 = (s.length + 1) + k by omega, slice_add, hbuf, List.append_assoc,
    List.takeWhile_append_of_pos fun c hc => by simpa using ne_of_mem_of_not_mem hc hs]
  simp

theorem snprintf_fits (buf : Nat → UInt8) {off size : Nat} {s : List UInt8} (hsize : 0 < size)
    (hfits : off + (s.take (size - 1)).length < errsysBufSize) :
    snprintf buf off size s = some (store buf off (s.take (size - 1) ++ [0])) := by
  rw [snprintf, if_neg (Nat.ne_of_gt hsize)]
  dsimp only
  rw [if_pos]
  rw [List.length_append, List.length_singleton]
  omega

/-- `buf` is kept to just where the prefix has no more than 255 bytes, and then holds the first
254 bytes of the whole message. -/
theorem errsysText_eq {levelstr mod text : List UInt8} (hno : 0 ∉ levelstr ++ mod ++ text)
    (hint : (levelstr ++ mod).length ≤ intMax) :
    errsysText levelstr mod text =
      if (levelstr ++ mod).length ≤ 255 then some (printedText levelstr mod text) else none := by
  unfold errsysText printedText
  generalize levelstr ++ mod = pre at *
  have hno' : 0 ∉ (pre ++ text).take 254 := fun hmem => hno (List.mem_of_mem_take hmem)
  have hfirst : snprintf (fun _ => 0) 0 255 pre = some (store (fun _ => 0) 0 (pre.take 254 ++ [0])) := by
    refine snprintf_fits _ (by decide) ?_
    rw [List.length_take, errsysBufSize]
    omega
  have hslice := slice_store_self (fun _ : Nat => (0 : UInt8)) 0 (pre.take 254 ++ [0])
  dsimp only
  rw [hfirst, Option.bind_some]
  by_cases hlen : pre.length ≤ 255
  · rw [if_pos hlen, sizeLeft, if_pos hlen]
    rcases Nat.lt_or_eq_of_le hlen with hlt | heq
    · -- The text goes behind the prefix, over the zero at its end.
      have hpre : pre.take 254 = pre := List.take_of_length_le (by omega)
      rw [hpre] at hslice ⊢
      rw [snprintf_fits _ (by omega) (by rw [List.length_take, errsysBufSize]; omega), Option.map_some]
      have hwhole : (pre ++ text).take 254 = pre ++ text.take (255 - pre.length - 1) := by
        rw [List.take_append, hpre, Nat.sub_right_comm]
      rw [hwhole] at hno' ⊢
      congr 1
      refine cString_of ?_ hno' ?_
      · rw [List.length_append, List.length_take, errsysBufSize]
        omega
      · have hfront : slice (store (fun _ => 0) 0 (pre ++ [0])) 0 pre.length = pre := by
          rw [← take_slice _ (show pre.length ≤ (pre ++ [0]).length by simp), hslice, List.take_left]
        have happ := slice_store_append (store (fun _ => 0) 0 (pre ++ [0])) 0 pre.length
          (text.take (255 - pre.length - 1) ++ [0])
        rw [Nat.zero_add, hfront, ← List.append_assoc] at happ
        rw [List.length_append, Nat.add_assoc]
        rw [List.length_append, List.length_singleton] at happ
        exact happ
    · have hwhole : (pre ++ text).take 254 = pre.take 254 := List.take_append_of_le_length (by omega)
      rw [hwhole] at hno' ⊢
      rw [heq, snprintf, if_pos rfl, Option.map_some]
      congr 1
      refine cString_of ?_ hno' ?_
      · rw [List.length_take, errsysBufSize]
        omega
      · rw [List.length_append, List.length_singleton] at hslice
        exact hslice
  · have hsize : UInt64.size + 255 - pre.length ≠ 0 := by
      rw [intMax] at hint
      rw [UInt64.size]
      omega
    rw [if_neg hlen, sizeLeft, if_neg hlen, snprintf, if_neg hsize]
    dsimp only
    rw [if_neg, Option.map_none]
    rw [List.length_append, List.length_singleton, errsysBufSize]
    omega

/-! ## What the log system is for -/

/-- The loggers, the one added last in front. -/
structure Sinks where
  registered : List ErrsysOperation
  data : ErrsysData

def Sinks.start (level : ErrsysNode → Int) (initParam : Option (List UInt8)) : Sinks :=
  ⟨[], ⟨level, initParam, [], [], [], []⟩⟩

def Sinks.nodes (t : Sinks) : List ErrsysNode := t.registered.map ErrsysNode.head

def Sinks.feature (t : Sinks) (op : ErrsysOperation) (level : Int) : Sinks where
  registered := op :: t.registered
  data := { t.data with level := Function.update t.data.level (.head op) level }

/-- The operation of a feature. -/
def featureOf : Nat → Option ErrsysOperation
  | 1 => some .printlog
  | 2 => some .syslog
  | 3 => some .filelog
  | _ => none

namespace ErrsysCallbacks

/-- `errsys_init` of the operation returns a negative number. -/
def fails (cb : ErrsysCallbacks) (node : ErrsysNode) : Bool := (cb.init node).any (· < 0)

/-- Those with an `errsys_init`. -/
def opens (cb : ErrsysCallbacks) (nodes : List ErrsysNode) : List ErrsysNode :=
  nodes.filter fun node => (cb.init node).isSome

/-- They are opened up to the first that fails, and that is what is returned. -/
def opened (cb : ErrsysCallbacks) (nodes : List ErrsysNode) : List ErrsysNode :=
  (cb.opens nodes).take (((cb.opens nodes).takeWhile fun node => !cb.fails node).length + 1)

def openRet (cb : ErrsysCallbacks) (nodes : List ErrsysNode) : Int :=
  (((cb.opens nodes).find? cb.fails).bind cb.init).getD 0

end ErrsysCallbacks

def Sinks.call (cb : ErrsysCallbacks) (t : Sinks) : ErrsysCall → Sinks
  | .features cap level filename =>
    match featureOf cap with
    | none => t
    | some .filelog => { t with data := { t.data with initParam := filename } }.feature .filelog level
    | some op => t.feature op level
  | .addOp op => { t with registered := op :: t.registered }
  | .delOp op => { t with registered := t.registered.erase op }
  | .init =>
    { t with data := { t.data with
        opened := t.data.opened ++ cb.opened t.nodes
        rets := t.data.rets ++ [cb.openRet t.nodes] } }
  | .print level levelstr mod text =>
    if levelstr ++ mod = [] then t
    else { t with data := { t.data with
        output := t.data.output ++
          (t.nodes.filter fun node => t.data.level node ≤ level).map (·, printedText levelstr mod text) } }
  | .release => { registered := [], data := { t.data with closed := t.data.closed ++ t.nodes.filter cb.rel } }

/-- No operation is added that is there already or removed that is not; the prefix of a message
has its room, and a message no zero byte. -/
def Sinks.Allowed (t : Sinks) : ErrsysCall → Prop
  | .features cap _ _ => ∀ op ∈ featureOf cap, op ∉ t.registered
  | .addOp op => op ∉ t.registered
  | .delOp op => op ∈ t.registered
  | .print _ levelstr mod text => (levelstr ++ mod).length ≤ 255 ∧ 0 ∉ levelstr ++ mod ++ text
  | .init | .release => True

/-- The list spells the loggers. -/
structure Errsys.Refines (s : Errsys) (t : Sinks) : Prop where
  ring : RingOf s.links .opList t.nodes
  data : s.data = t.data

variable {cb : ErrsysCallbacks} {s : Errsys} {t : Sinks} {op : ErrsysOperation} {n : Nat}

theorem errsys_start (h : Links ErrsysNode) (level : ErrsysNode → Int) (initParam : Option (List UInt8)) :
    (Errsys.start h level initParam).Refines (.start level initParam) :=
  ⟨initListHead_ring h .opList, rfl⟩

/-! ### Loops -/

/-- A loop over the loggers that leaves the list alone. -/
theorem links_relRound (cb : ErrsysCallbacks) (s : Errsys) (pos : ErrsysNode) :
    (errsysRelRound cb s pos).1.links = s.links := by
  unfold errsysRelRound
  dsimp only
  split <;> rfl

theorem links_printRound (level : Int) (buf : List UInt8) (s : Errsys) (pos : ErrsysNode) :
    (errsysPrintRound level buf s pos).1.links = s.links := by
  unfold errsysPrintRound
  dsimp only
  split <;> rfl

theorem forEach_sinks {σ : Type} (links : σ → Links ErrsysNode) (body : σ → ErrsysNode → σ × Bool) (h : s.Refines t)
    (hn : t.registered.length < n) (hkeep : ∀ x a, links (body x a).1 = links x) {x : σ} (hx : links x = s.links) :
    listForEach links body .opList n x (s.links.next .opList) = some (runOver body x t.nodes) := by
  rw [← hx]
  refine listForEach_eq hkeep ?_ (List.nodup_cons.1 h.ring.nodup).1 ?_
  · rw [hx]
    exact h.ring.path
  · rw [Sinks.nodes, List.length_map]
    exact hn

theorem runOver_init (cb : ErrsysCallbacks) (s : Errsys) (rc : Int) (hrc : ¬ rc < 0) (nodes : List ErrsysNode) :
    (runOver (errsysInitRound cb) (s, rc) nodes).1 =
        { s with data := { s.data with opened := s.data.opened ++ cb.opened nodes } } ∧
      (if (runOver (errsysInitRound cb) (s, rc) nodes).2 < 0 then (runOver (errsysInitRound cb) (s, rc) nodes).2 else 0) =
        cb.openRet nodes := by
  induction nodes generalizing s rc with
  | nil =>
    refine ⟨?_, if_neg hrc⟩
    simp [runOver, ErrsysCallbacks.opened, ErrsysCallbacks.opens]
  | cons node nodes ih =>
    cases hinit : cb.init node with
    | none =>
      have hopens : cb.opens (node :: nodes) = cb.opens nodes := by simp [ErrsysCallbacks.opens, hinit]
      have hround : errsysInitRound cb (s, rc) node = ((s, rc), true) := by simp only [errsysInitRound, hinit]
      rw [runOver, hround, ErrsysCallbacks.opened, ErrsysCallbacks.openRet, hopens]
      exact ih s rc hrc
    | some rc' =>
      have hopens : cb.opens (node :: nodes) = node :: cb.opens nodes := by simp [ErrsysCallbacks.opens, hinit]
      have hround : errsysInitRound cb (s, rc) node =
          (({ s with data := { s.data with opened := s.data.opened ++ [node] } }, rc'), decide (¬ rc' < 0)) := by
        simp only [errsysInitRound, hinit]
      rw [runOver, hround, ErrsysCallbacks.opened, ErrsysCallbacks.openRet, hopens]
      by_cases hneg : rc' < 0
      · have hfails : cb.fails node = true := by simp [ErrsysCallbacks.fails, hinit, hneg]
        simp [hneg, hfails, hinit]
      · have hfails : cb.fails node = false := by simpa [ErrsysCallbacks.fails, hinit] using hneg
        obtain ⟨hstate, hret⟩ := ih { s with data := { s.data with opened := s.data.opened ++ [node] } } rc' hneg
        dsimp only
        rw [if_pos (decide_eq_true hneg), hstate, hret]
        simp [hfails, ErrsysCallbacks.opened, ErrsysCallbacks.openRet]

theorem runOver_rel (s : Errsys) (nodes : List ErrsysNode) :
    runOver (errsysRelRound cb) s nodes =
      { s with data := { s.data with closed := s.data.closed ++ nodes.filter cb.rel } } := by
  induction nodes generalizing s with
  | nil => simp [runOver]
  | cons node nodes ih =>
    rw [runOver, errsysRelRound]
    dsimp only
    rw [if_pos rfl, ih]
    cases hrel : cb.rel node with
    | true => simp [hrel]
    | false => simp [hrel]

theorem runOver_print (s : Errsys) (level : Int) (buf : List UInt8) (nodes : List ErrsysNode) :
    runOver (errsysPrintRound level buf) s nodes =
      { s with data := { s.data with
          output := s.data.output ++ (nodes.filter fun node => s.data.level node ≤ level).map (·, buf) } } := by
  induction nodes generalizing s with
  | nil => simp [runOver]
  | cons node nodes ih =>
    rw [runOver, errsysPrintRound]
    dsimp only
    rw [if_pos rfl, ih]
    by_cases hle : s.data.level node ≤ level
    · simp [hle]
    · simp [hle]

/-! ### Steps -/

theorem mem_nodes : ErrsysNode.head op ∈ .opList :: t.nodes ↔ op ∈ t.registered := by
  simp [Sinks.nodes]

theorem addOp_refines (h : s.Refines t) (hop : op ∉ t.registered) :
    (errsysAddOp s op).Refines { t with registered := op :: t.registered } :=
  ⟨listAdd_ring h.ring (fun hmem => hop (mem_nodes.1 hmem)), h.data⟩

theorem feature_refines (h : s.Refines t) (hop : op ∉ t.registered) (level : Int) :
    (errsysFeature s op level).Refines (t.feature op level) := by
  have hlevel : Errsys.Refines
      { s with data := { s.data with level := Function.update s.data.level (.head op) level } }
      { t with data := { t.data with level := Function.update t.data.level (.head op) level } } :=
    ⟨h.ring, by rw [h.data]⟩
  exact addOp_refines hlevel hop

theorem features_refines (h : s.Refines t) {cap : Nat} (hop : ∀ op ∈ featureOf cap, op ∉ t.registered) (level : Int)
    (filename : Option (List UInt8)) :
    (errsysFeatures s cap level filename).Refines (t.call cb (.features cap level filename)) := by
  unfold errsysFeatures
  split
  · exact feature_refines h (hop _ rfl) level
  · exact feature_refines h (hop _ rfl) level
  · have hparam : Errsys.Refines { s with data := { s.data with initParam := filename } }
        { t with data := { t.data with initParam := filename } } := ⟨h.ring, by rw [h.data]⟩
    exact feature_refines hparam (hop _ rfl) level
  · rename_i h₁ h₂ h₃
    have hnone : featureOf cap = none := by
      unfold featureOf
      split
      · exact absurd rfl h₁
      · exact absurd rfl h₂
      · exact absurd rfl h₃
      · rfl
    simp only [Sinks.call, hnone]
    exact h

theorem delOp_refines (h : s.Refines t) (hop : op ∈ t.registered) :
    (errsysDelOp s op).Refines { t with registered := t.registered.erase op } := by
  obtain ⟨l₁, l₂, hnot, hlist, herase⟩ := List.exists_erase_eq hop
  have hring := h.ring
  rw [Sinks.nodes, hlist, List.map_append, List.map_cons] at hring
  refine ⟨?_, h.data⟩
  rw [Sinks.nodes, herase, List.map_append]
  exact listDel_ring .poison1 .poison2 hring

theorem init_refines (cb : ErrsysCallbacks) (h : s.Refines t) (hn : t.registered.length < n) :
    ∃ s', s.step cb n .init = some s' ∧ s'.Refines (t.call cb .init) := by
  obtain ⟨hstate, hret⟩ := runOver_init cb s 0 (by decide) t.nodes
  have hkeep : ∀ (x : Errsys × Int) a, (errsysInitRound cb x a).1.1.links = x.1.links := by
    intro x a
    unfold errsysInitRound
    split <;> rfl
  have hloop := forEach_sinks (fun x => x.1.links) (errsysInitRound cb) h hn hkeep (x := (s, 0)) rfl
  refine ⟨_, by rw [Errsys.step, errsysInit, hloop]; rfl, ?_, ?_⟩
  · dsimp only
    rw [hstate]
    exact h.ring
  · dsimp only
    rw [hstate, hret, h.data]
    rfl

theorem rel_refines (cb : ErrsysCallbacks) (h : s.Refines t) (hn : t.registered.length < n) :
    ∃ s', s.step cb n .release = some s' ∧ s'.Refines (t.call cb .release) := by
  have hloop := forEach_sinks Errsys.links (errsysRelRound cb) h hn (links_relRound cb) (x := s) rfl
  rw [runOver_rel] at hloop
  refine ⟨_, by rw [Errsys.step, errsysRel, hloop]; rfl, initListHead_ring _ _, ?_⟩
  dsimp only
  rw [h.data]
  rfl

theorem print_loop (h : s.Refines t) (hn : t.registered.length < n) (level : Int) (buf : List UInt8) :
    listForEach Errsys.links (errsysPrintRound level buf) .opList n s (s.links.next .opList) =
      some { s with data := { s.data with
        output := s.data.output ++ (t.nodes.filter fun node => s.data.level node ≤ level).map (·, buf) } } := by
  rw [forEach_sinks Errsys.links (errsysPrintRound level buf) h hn (links_printRound level buf) rfl, runOver_print]

theorem print_refines (cb : ErrsysCallbacks) (level : Int) (h : s.Refines t) (hn : t.registered.length < n)
    {levelstr mod text : List UInt8}
    (hlen : (levelstr ++ mod).length ≤ 255) (hno : 0 ∉ levelstr ++ mod ++ text) :
    ∃ s', errsysPrint n s level levelstr mod text = some s' ∧
      s'.Refines (t.call cb (.print level levelstr mod text)) := by
  unfold errsysPrint
  by_cases hempty : levelstr ++ mod = []
  · rw [if_neg (fun hpos => absurd hpos.1 (by rw [hempty]; decide))]
    refine ⟨s, rfl, ?_⟩
    rw [Sinks.call, if_pos hempty]
    exact h
  · have hint : (levelstr ++ mod).length ≤ intMax := Nat.le_trans hlen (by decide)
    rw [if_pos ⟨List.length_pos_iff.2 hempty, hint⟩, errsysText_eq hno hint, if_pos hlen, Option.bind_some,
      print_loop h hn]
    refine ⟨_, rfl, ?_⟩
    rw [Sinks.call, if_neg hempty]
    refine ⟨h.ring, ?_⟩
    dsimp only
    rw [h.data]

theorem errsys_step (cb : ErrsysCallbacks) (h : s.Refines t) {call : ErrsysCall} (hok : t.Allowed call)
    (hn : t.registered.length < n) :
    ∃ s', s.step cb n call = some s' ∧ s'.Refines (t.call cb call) := by
  cases call with
  | features cap level filename => exact ⟨_, rfl, features_refines h hok level filename⟩
  | addOp op => exact ⟨_, rfl, addOp_refines h hok⟩
  | delOp op => exact ⟨_, rfl, delOp_refines h hok⟩
  | init => exact init_refines cb h hn
  | print level levelstr mod text => exact print_refines cb level h hn hok.1 hok.2
  | release => exact rel_refines cb h hn

theorem registered_le (cb : ErrsysCallbacks) (t : Sinks) (call : ErrsysCall) :
    (t.call cb call).registered.length ≤ t.registered.length + 1 := by
  cases call with
  | features cap level filename =>
    unfold Sinks.call
    dsimp only
    split
    · exact Nat.le_succ _
    · exact Nat.le_refl _
    · exact Nat.le_refl _
  | addOp op => exact Nat.le_refl _
  | delOp op => exact Nat.le_succ_of_le (List.length_erase_le)
  | init => exact Nat.le_succ _
  | print level levelstr mod text =>
    unfold Sinks.call
    dsimp only
    split
    · exact Nat.le_succ _
    · exact Nat.le_succ _
  | release => exact Nat.zero_le _

/-! ### Runs -/

/-- The loggers, one call after the other. -/
def Sinks.step (cb : ErrsysCallbacks) (t : Sinks) (call : ErrsysCall) : Option Sinks := some (t.call cb call)

theorem errsys_run {calls : List ErrsysCall} {t' : Sinks} (h : s.Refines t)
    (hrun : OkRun (Sinks.step cb) Sinks.Allowed t calls t') (hn : t.registered.length + calls.length < n) :
    ∃ s', exec (Errsys.step cb n) s calls = some s' ∧ s'.Refines t' := by
  induction calls generalizing s t with
  | nil =>
    cases hrun.exec
    exact ⟨s, rfl, h⟩
  | cons call calls ih =>
    have hle := registered_le cb t call
    rw [List.length_cons] at hn
    obtain ⟨s₁, hs₁, h₁⟩ := errsys_step cb (n := n) h hrun.along.1 (by omega)
    have hrest : OkRun (Sinks.step cb) Sinks.Allowed (t.call cb call) calls t' :=
      ⟨(exec_cons calls rfl).symm.trans hrun.exec, hrun.along.2 _ rfl⟩
    obtain ⟨s', hs', h'⟩ := ih h₁ hrest (by omega)
    exact ⟨s', (exec_cons calls hs₁).trans hs', h'⟩

theorem registered_run {calls : List ErrsysCall} {t' : Sinks} (hrun : exec (Sinks.step cb) t calls = some t') :
    t'.registered.length ≤ t.registered.length + calls.length := by
  induction calls generalizing t with
  | nil =>
    cases hrun
    exact Nat.le_refl _
  | cons call calls ih =>
    have hle := registered_le cb t call
    have hrest := ih ((exec_cons calls rfl).symm.trans hrun)
    rw [List.length_cons]
    omega

/-- Whatever is added, removed, opened, printed and released, in any order: while no operation
is added that is there or removed that is not, and each message has no zero byte and a prefix
of at most 255 bytes, every loop ends, and each message goes to just the loggers there whose
level it reaches, the one added last first, with the first 254 bytes of its text. -/
theorem errsys_delivers (cb : ErrsysCallbacks) (h : Links ErrsysNode) (level : ErrsysNode → Int)
    (initParam : Option (List UInt8)) (calls : List ErrsysCall) (t : Sinks)
    (hrun : OkRun (Sinks.step cb) Sinks.Allowed (.start level initParam) calls t) (n : Nat) (hn : calls.length < n) :
    ∃ s, exec (Errsys.step cb n) (.start h level initParam) calls = some s ∧ s.data = t.data ∧
      walk s.links .opList n (s.links.next .opList) = some t.nodes := by
  have hfuel : (Sinks.start level initParam).registered.length + calls.length < n := by
    rw [Sinks.start, List.length_nil, Nat.zero_add]
    exact hn
  obtain ⟨s, hs, hsinks⟩ := errsys_run (errsys_start h level initParam) hrun hfuel
  refine ⟨s, hs, hsinks.data, hsinks.ring.walk_eq ?_⟩
  rw [Sinks.nodes, List.length_map]
  exact Nat.lt_of_le_of_lt (registered_run hrun.exec) hfuel

/-- As `main` sets it up: messages on standard error, those from level 1 on also to the system
log. `[DEBUG][M]x` and `[INFO][M]x` are printed. -/
def mainLog : List ErrsysCall :=
  [.features 1 0 none, .features 2 1 none, .init,
    .print 0 [91, 68, 69, 66, 85, 71, 93] [91, 77, 93] [120], .print 1 [91, 73, 78, 70, 79, 93] [91, 77, 93] [120],
    .release]

theorem errsys_delivers_main :
    let cb : ErrsysCallbacks := ⟨fun _ => some 0, fun node => node = .head .syslog⟩
    ∃ t, OkRun (Sinks.step cb) Sinks.Allowed (.start (fun _ => 0) none) mainLog t ∧
      ∃ s, exec (Errsys.step cb 7) (.start ⟨fun a => a, fun a => a⟩ (fun _ => 0) none) mainLog = some s ∧
        s.data = t.data ∧ walk s.links .opList 7 (s.links.next .opList) = some t.nodes := by
  intro cb
  have hrun : ∃ t, OkRun (Sinks.step cb) Sinks.Allowed (.start (fun _ => 0) none) mainLog t := by
    refine ⟨_, .cons (fun op _ => List.not_mem_nil) rfl (.cons ?_ rfl (.cons trivial rfl (.cons ?_ rfl (.cons ?_ rfl
      (.cons trivial rfl (.nil _))))))⟩
    · rintro op ⟨⟩
      decide
    · exact ⟨by decide, by decide⟩
    · exact ⟨by decide, by decide⟩
  obtain ⟨t, hrun⟩ := hrun
  exact ⟨t, hrun, errsys_delivers cb _ _ none mainLog t hrun 7 (by decide)⟩

/-! ### A logger added twice -/

/-- Once an operation is in the list twice, the way round never comes back. -/
theorem walk_added_twice (h : s.Refines t) (hop : op ∈ t.registered) (n : Nat) :
    walk (errsysAddOp s op).links .opList n ((errsysAddOp s op).links.next .opList) = none := by
  obtain ⟨l₁, l₂, hlist⟩ := List.append_of_mem hop
  have hring := h.ring
  rw [Sinks.nodes, hlist, List.map_append, List.map_cons] at hring
  exact hring.insertFront_again n

/-- In every state a message goes wrong just where its prefix has no room in `buf`, or where
the list is not at its end after `n` rounds. -/
theorem print_none_iff (n : Nat) (s : Errsys) (level : Int) {levelstr mod text : List UInt8}
    (hint : (levelstr ++ mod).length ≤ intMax) (hno : 0 ∉ levelstr ++ mod ++ text) :
    errsysPrint n s level levelstr mod text = none ↔
      255 < (levelstr ++ mod).length ∨
        levelstr ++ mod ≠ [] ∧ walk s.links .opList n (s.links.next .opList) = none := by
  unfold errsysPrint
  by_cases hempty : levelstr ++ mod = []
  · rw [if_neg (fun hpos => absurd hpos.1 (by rw [hempty]; decide)), hempty]
    exact ⟨nofun, fun hor => hor.elim (fun hlong => absurd hlong (by decide)) fun hlist => absurd rfl hlist.1⟩
  · rw [if_pos ⟨List.length_pos_iff.2 hempty, hint⟩, errsysText_eq hno hint]
    by_cases hlen : (levelstr ++ mod).length ≤ 255
    · rw [if_pos hlen, Option.bind_some, listForEach_none_iff Errsys.links
        (errsysPrintRound level (printedText levelstr mod text)) (links_printRound level _) (fun _ _ => rfl)]
      exact ⟨fun hwalk => Or.inr ⟨hempty, hwalk⟩,
        fun hor => hor.elim (fun hlong => absurd hlen (Nat.not_le.2 hlong)) And.right⟩
    · rw [if_neg hlen]
      exact ⟨fun _ => Or.inl (Nat.not_le.1 hlen), fun _ => rfl⟩

theorem addOp_ends_iff (h : s.Refines t) (op : ErrsysOperation) {level : Int} {levelstr mod text : List UInt8}
    (hpre : levelstr ++ mod ≠ []) (hlen : (levelstr ++ mod).length ≤ 255) (hno : 0 ∉ levelstr ++ mod ++ text) :
    ((∃ n s', errsysPrint n (errsysAddOp s op) level levelstr mod text = some s') ↔ op ∉ t.registered) ∧
      ((∃ n s', errsysRel cb n (errsysAddOp s op) = some s') ↔ op ∉ t.registered) := by
  refine ⟨⟨?_, fun hop => ?_⟩, ⟨?_, fun hop => ?_⟩⟩
  · rintro ⟨n, s', hprint⟩ hop
    have hint : (levelstr ++ mod).length ≤ intMax := Nat.le_trans hlen (by decide)
    have hnone := (print_none_iff n (errsysAddOp s op) level hint hno).2 (Or.inr ⟨hpre, walk_added_twice h hop n⟩)
    cases hnone.symm.trans hprint
  · obtain ⟨s', hs', -⟩ := print_refines cb level (addOp_refines h hop) (Nat.lt_succ_self _) hlen hno
    exact ⟨_, s', hs'⟩
  · rintro ⟨n, s', hrel⟩ hop
    have hloop := (listForEach_none_iff Errsys.links (errsysRelRound cb) (links_relRound cb) (fun _ _ => rfl) n _ _).2
      (walk_added_twice h hop n)
    rw [errsysRel, hloop] at hrel
    cases hrel
  · obtain ⟨s', hs', -⟩ := rel_refines cb (addOp_refines h hop) (Nat.lt_succ_self _)
    exact ⟨_, s', hs'⟩

/-- A feature is its operation added, after other things than the list have changed. -/
theorem features_of {cap : Nat} (hcap : featureOf cap = some op) (s : Errsys) (level : Int)
    (filename : Option (List UInt8)) :
    ∃ s', errsysFeatures s cap level filename = errsysAddOp s' op ∧ s'.links = s.links := by
  unfold featureOf at hcap
  split at hcap
  · cases hcap
    exact ⟨_, rfl, rfl⟩
  · cases hcap
    exact ⟨_, rfl, rfl⟩
  · cases hcap
    exact ⟨_, rfl, rfl⟩
  · cases hcap

/-- In every state that the callers' rules lead to, a call of `errsys_features` leaves the log
system able to print a message, and to be released, just where that logger was not there yet;
otherwise either call never returns. -/
theorem features_once_iff (cb : ErrsysCallbacks) (h : Links ErrsysNode) (level₀ : ErrsysNode → Int)
    (initParam : Option (List UInt8)) (calls : List ErrsysCall) (t : Sinks)
    (hrun : OkRun (Sinks.step cb) Sinks.Allowed (.start level₀ initParam) calls t) (n₀ : Nat) (hn₀ : calls.length < n₀)
    (s : Errsys) (hs : exec (Errsys.step cb n₀) (.start h level₀ initParam) calls = some s)
    (cap : Nat) (op : ErrsysOperation) (hcap : featureOf cap = some op) (level : Int) (filename : Option (List UInt8))
    (levelstr mod text : List UInt8) (hpre : levelstr ++ mod ≠ []) (hlen : (levelstr ++ mod).length ≤ 255)
    (hno : 0 ∉ levelstr ++ mod ++ text) :
    ((∃ n s', errsysPrint n (errsysFeatures s cap level filename) level levelstr mod text = some s') ↔
        op ∉ t.registered) ∧
      ((∃ n s', errsysRel cb n (errsysFeatures s cap level filename) = some s') ↔ op ∉ t.registered) := by
  have hfuel : (Sinks.start level₀ initParam).registered.length + calls.length < n₀ := by
    rw [Sinks.start, List.length_nil, Nat.zero_add]
    exact hn₀
  obtain ⟨s₁, hs₁, hsinks⟩ := errsys_run (errsys_start h level₀ initParam) hrun hfuel
  cases hs₁.symm.trans hs
  obtain ⟨s', hs', hlinks⟩ := features_of hcap s level filename
  have hsinks' : s'.Refines ⟨t.registered, s'.data⟩ := ⟨by rw [hlinks]; exact hsinks.ring, rfl⟩
  rw [hs']
  exact addOp_ends_iff hsinks' op hpre hlen hno

theorem features_once_iff_main :
    let cb : ErrsysCallbacks := ⟨fun _ => some 0, fun _ => false⟩
    ∃ s, exec (Errsys.step cb 2) (.start ⟨fun a => a, fun a => a⟩ (fun _ => 0) none) [.features 1 0 none] = some s ∧
      ((∃ n s', errsysPrint n (errsysFeatures s 1 0 none) 0 [91] [93] [] = some s') ↔
          ErrsysOperation.printlog ∉ [ErrsysOperation.printlog]) ∧
        ((∃ n s', errsysRel cb n (errsysFeatures s 1 0 none) = some s') ↔
          ErrsysOperation.printlog ∉ [ErrsysOperation.printlog]) := by
  intro cb
  exact ⟨_, rfl, features_once_iff cb _ _ none [.features 1 0 none] _
    (.cons (fun op _ => List.not_mem_nil) rfl (.nil _)) 2 (by decide) _ rfl 1 .printlog rfl 0 none [91] [93] []
    (by decide) (by decide) (by decide)⟩

/-- `errsys_print` writes outside `buf` just where level and module name have more than 255 bytes
together. In every state, loggers added twice or not, that is all that can go wrong but for a
list without an end; in the states that the callers' rules lead to it is all. -/
theorem errsysPrint_overruns_iff (level : Int) (levelstr mod text : List UInt8)
    (hint : (levelstr ++ mod).length ≤ intMax) (hno : 0 ∉ levelstr ++ mod ++ text) :
    (errsysText levelstr mod text = none ↔ 255 < (levelstr ++ mod).length) ∧
      (∀ (n : Nat) (s : Errsys), errsysPrint n s level levelstr mod text = none ↔
        255 < (levelstr ++ mod).length ∨
          levelstr ++ mod ≠ [] ∧ walk s.links .opList n (s.links.next .opList) = none) ∧
      ∀ (cb : ErrsysCallbacks) (h : Links ErrsysNode) (level₀ : ErrsysNode → Int) (initParam : Option (List UInt8))
        (calls : List ErrsysCall) (t : Sinks), OkRun (Sinks.step cb) Sinks.Allowed (.start level₀ initParam) calls t →
        ∀ n : Nat, calls.length < n →
        ∀ s : Errsys, exec (Errsys.step cb n) (.start h level₀ initParam) calls = some s →
          (errsysPrint n s level levelstr mod text = none ↔ 255 < (levelstr ++ mod).length) := by
  refine ⟨?_, fun n s => print_none_iff n s level hint hno, ?_⟩
  · rw [errsysText_eq hno hint]
    by_cases hlen : (levelstr ++ mod).length ≤ 255
    · rw [if_pos hlen]
      exact ⟨nofun, fun hlong => absurd hlen (Nat.not_le.2 hlong)⟩
    · rw [if_neg hlen]
      exact ⟨fun _ => Nat.not_le.1 hlen, fun _ => rfl⟩
  · intro cb h level₀ initParam calls t hrun n hn s hs
    have hfuel : (Sinks.start level₀ initParam).registered.length + calls.length < n := by
      rw [Sinks.start, List.length_nil, Nat.zero_add]
      exact hn
    obtain ⟨s₁, hs₁, hsinks⟩ := errsys_run (errsys_start h level₀ initParam) hrun hfuel
    cases hs₁.symm.trans hs
    have hwalk : walk s.links .opList n (s.links.next .opList) = some t.nodes := by
      refine hsinks.ring.walk_eq ?_
      rw [Sinks.nodes, List.length_map]
      exact Nat.lt_of_le_of_lt (registered_run hrun.exec) hfuel
    rw [print_none_iff n s level hint hno, hwalk]
    exact ⟨fun hor => hor.elim id fun hlist => absurd hlist.2 (Option.some_ne_none _), Or.inl⟩

/-- A prefix of two bytes has its room; one of 256 does not, whether or not there is a logger. -/
theorem errsysPrint_overruns_iff_both :
    let cb : ErrsysCallbacks := ⟨fun _ => some 0, fun _ => false⟩
    ∃ s, exec (Errsys.step cb 2) (.start ⟨fun a => a, fun a => a⟩ (fun _ => 0) none) [.features 1 0 none] = some s ∧
      errsysPrint 2 s 0 [91] [93] [1] ≠ none ∧ errsysPrint 2 s 0 (List.replicate 255 91) [93] [1] = none := by
  intro cb
  have hrun : OkRun (Sinks.step cb) Sinks.Allowed (.start (fun _ => 0) none) [.features 1 0 none] _ :=
    .cons (fun op _ => List.not_mem_nil) rfl (.nil _)
  refine ⟨_, rfl, fun hnone => ?_, ?_⟩
  · have hlong := ((errsysPrint_overruns_iff 0 [91] [93] [1] (by decide) (by decide)).2.2 cb _ _ none _ _ hrun 2
      (by decide) _ rfl).1 hnone
    exact absurd hlong (by decide)
  · have hlen : (List.replicate 255 (91 : UInt8) ++ [93]).length = 256 := by
      rw [List.length_append, List.length_replicate]
      rfl
    have hno : (0 : UInt8) ∉ List.replicate 255 (91 : UInt8) ++ [93] ++ [1] := by
      rw [List.append_assoc, List.mem_append, not_or]
      exact ⟨fun hmem => absurd (List.eq_of_mem_replicate hmem) (by decide), by decide⟩
    exact ((errsysPrint_overruns_iff 0 (List.replicate 255 91) [93] [1] (by rw [hlen]; decide) hno).2.1 2 _).2
      (Or.inl (by rw [hlen]; decide))

end CmdAgent
