import CmdAgent.NetcomInfo
import CmdAgent.StreamLib.Runs
/-!
# What a handle frees

A handle is set up once, connected and disconnected at will, and released. Each
object is freed once, exactly if two failures do not happen: `zmalloc` for the write
blob, behind which `wrbuf_ncbuf` is freed twice, and the connect call of
`l0006_netcom_connect`, behind which the bufferevent is.
-/
open StreamLib.Lifetime StreamLib.Runs

namespace CmdAgent

variable {α : Type}

/-! ## The life of a handle -/

inductive Life where
  | blank
  | opened
  /-- `l0006_netcom_initialize` has failed. -/
  | failed
  | released
  deriving DecidableEq

structure Handle (α : Type) where
  life : Life
  info : NetcomInfo α

inductive HandleEv where
  | init (ok : NetcomInfo.InitSteps)
  | connect (made started : Bool)
  | connect2 (made started : Bool)
  | disconnect
  | release
  deriving DecidableEq

namespace Handle

def init [Inhabited α] : Handle α := ⟨.blank, NetcomInfo.zeroed⟩

/-- `none` where the handle is not set up, or no longer. -/
def step [Inhabited α] (handle : Handle α) : HandleEv → Option (Handle α)
  | .init ok =>
    if handle.life = .blank then
      let (retval, info) := handle.info.l0006NetcomInitialize ok
      some ⟨if retval = 0 then .opened else .failed, info⟩
    else none
  | .connect made started =>
    if handle.life = .opened then some { handle with info := (handle.info.l0006NetcomConnect made started).2 } else none
  | .connect2 made started =>
    if handle.life = .opened then some { handle with info := (handle.info.l0006NetcomConnect2 made started).2 } else none
  | .disconnect => if handle.life = .opened then some { handle with info := handle.info.l0006NetcomDisconnect } else none
  | .release => if handle.life = .opened then some ⟨.released, handle.info.l0006NetcomRelease⟩ else none

/-- Nothing is freed twice or used after it was freed, and a failed set-up has freed
all it has made. -/
def Clean (handle : Handle α) : Prop :=
  Once handle.info.heap.log ∧
    (handle.life = .failed → ∀ obj, .new obj ∈ handle.info.heap.log → .free obj ∈ handle.info.heap.log)

end Handle

/-- Neither of the two failures behind which something is freed twice. -/
def HandleEv.Harmless : HandleEv → Prop
  | .init ok => ¬ (ok.wrbufNcbuf = true ∧ ok.wrbufBlob = false)
  | .connect made started => ¬ (made = true ∧ started = false)
  | _ => True

instance : (ev : HandleEv) → Decidable ev.Harmless
  | .init _ => inferInstanceAs (Decidable (¬ _))
  | .connect .. => inferInstanceAs (Decidable (¬ _))
  | .connect2 .. | .disconnect | .release => .isTrue trivial

/-! ## Setting up -/

namespace NetcomInfo
variable {info : NetcomInfo α} {held : List Nat}

/-- What the handle holds besides the bufferevent. -/
def rest (info : NetcomInfo α) : List Nat :=
  info.base.toList ++ (info.evtimeout.toList ++ (info.rdBlob.toList ++ (info.wrbufBlob.toList ++
    (info.wrbufNcbuf.toList ++ (info.rwlockAttr.toList ++ info.rwlock.toList)))))

/-- The handle holds what it points to, and no more. -/
def Opened (info : NetcomInfo α) : Prop := info.heap.Owns (info.nc.bev.toList ++ info.rest)

theorem err3_owns (h : info.heap.Owns (info.rwlock.toList ++ (info.rwlockAttr.toList ++ held))) :
    info.err3.heap.Owns held := h.freeAt.freeAt

theorem err4_owns (h : info.heap.Owns (info.rdBlob.toList ++ (info.wrbufBlob.toList ++ (info.wrbufNcbuf.toList ++
    (info.rwlock.toList ++ (info.rwlockAttr.toList ++ held)))))) : info.err4.heap.Owns held :=
  err3_owns h.freeAt.freeAt.freeAt

theorem err5_owns (h : info.heap.Owns (info.base.toList ++ (info.rdBlob.toList ++ (info.wrbufBlob.toList ++
    (info.wrbufNcbuf.toList ++ (info.rwlock.toList ++ (info.rwlockAttr.toList ++ held))))))) :
    info.err5.heap.Owns held := by
  apply err4_owns
  exact h.freeAt

theorem err6_owns (h : info.heap.Owns (info.evtimeout.toList ++ (info.base.toList ++ (info.rdBlob.toList ++
    (info.wrbufBlob.toList ++ (info.wrbufNcbuf.toList ++ (info.rwlock.toList ++ (info.rwlockAttr.toList ++ held)))))))) :
    info.err6.heap.Owns held := by
  apply err5_owns
  have huse := h.useAt info.evtimeout fun obj hobj =>
    List.mem_append_left _ (Option.mem_toList.2 hobj)
  exact huse.freeAt

/-- What `netcom_allocate_buffer` leaves. -/
inductive Allocated [Inhabited α] (info : NetcomInfo α) (held : List Nat) (ok : InitSteps) : Int × NetcomInfo α → Prop
  | done (ncbuf blob rdBlob : Nat) (heap : Heap) : ¬ (ok.wrbufNcbuf = true ∧ ok.wrbufBlob = false) →
      heap.Owns (rdBlob :: blob :: ncbuf :: held) →
      Allocated info held ok (0, { info with
        nc := netcomAllocateBuffer, wrbufNcbuf := some ncbuf, wrbufBlob := some blob, rdBlob := some rdBlob, heap := heap })
  | failed (ncbuf blob rdBlob : Option Nat) (heap : Heap) : ¬ (ok.wrbufNcbuf = true ∧ ok.wrbufBlob = false) →
      heap.Owns held → Allocated info held ok (-1, { info with
        wrbufNcbuf := ncbuf, wrbufBlob := blob, rdBlob := rdBlob, heap := heap })
  | twice (ncbuf blob : Option Nat) (heap : Heap) : ok.wrbufNcbuf = true → ok.wrbufBlob = false → ¬ Once heap.log →
      Allocated info held ok (-1, { info with wrbufNcbuf := ncbuf, wrbufBlob := blob, heap := heap })

theorem allocateBuffer_of [Inhabited α] (info : NetcomInfo α) (h : info.heap.Owns held) (ok : InitSteps) :
    Allocated info held ok (info.allocateBuffer ok) := by
  unfold allocateBuffer Heap.make
  cases hncbuf : ok.wrbufNcbuf with
  | false => exact .failed none info.wrbufBlob info.rdBlob _ (by simp [hncbuf]) h
  | true =>
    cases hblob : ok.wrbufBlob with
    | false =>
      apply Allocated.twice _ _ _ hncbuf hblob
      apply Heap.not_once_free
      simp [Heap.freeAt, Heap.free]
    | true =>
      cases hrd : ok.rdBlob with
      | false =>
        apply Allocated.failed _ _ _ _ (by simp [hblob])
        exact h.new.new.free.free
      | true => exact .done _ _ _ _ (by simp [hblob]) h.new.new.new

theorem once_err3 (h : ¬ Once info.heap.log) : ¬ Once info.err3.heap.log := by
  intro hc
  obtain ⟨l, hl⟩ := Heap.log_freeAt (info.heap.freeAt info.rwlock) info.rwlockAttr
  obtain ⟨l', hl'⟩ := Heap.log_freeAt info.heap info.rwlock
  change Once ((info.heap.freeAt info.rwlock).freeAt info.rwlockAttr).log at hc
  rw [hl, hl'] at hc
  exact h hc.left.left

/-- What `l0006_netcom_initialize` leaves. -/
inductive Initialized (ok : InitSteps) : Int × NetcomInfo α → Prop
  | opened (info : NetcomInfo α) : (HandleEv.init ok).Harmless → info.Opened → Initialized ok (0, info)
  | failed (info : NetcomInfo α) : (HandleEv.init ok).Harmless → info.heap.Owns [] → Initialized ok (-1, info)
  | twice (info : NetcomInfo α) : ¬ (HandleEv.init ok).Harmless → ¬ Once info.heap.log → Initialized ok (-1, info)

theorem initialize_of [Inhabited α] (h : info.heap.Owns []) (ok : InitSteps) :
    Initialized ok (info.l0006NetcomInitialize ok) := by
  have hnotneg : ∀ n : Nat, ¬ (n : Int) < 0 := fun n => Int.not_lt.2 (Int.natCast_nonneg n)
  have hattrs := h.make (ok.rwlockAttr == 0)
  have huse := hattrs.useAt _ fun obj hobj => List.mem_append_left _ (Option.mem_toList.2 hobj)
  have hlocks := huse.make (ok.rwlock == 0)
  unfold l0006NetcomInitialize
  simp only [if_neg (hnotneg _)]
  generalize info.heap.make (ok.rwlockAttr == 0) = attr at hlocks ⊢
  generalize (attr.2.useAt attr.1).make (ok.rwlock == 0) = lock at hlocks ⊢
  have halloc := allocateBuffer_of { info with rwlockAttr := attr.1, rwlock := lock.1, heap := lock.2 } hlocks ok
  generalize allocateBuffer (_ : NetcomInfo α) ok = r at halloc ⊢
  cases halloc with
  | failed ncbuf blob rdBlob heap hok howns => exact .failed _ hok (err3_owns howns)
  | twice ncbuf blob heap hncbuf hblob htwice =>
    exact .twice _ (fun hok => hok ⟨hncbuf, hblob⟩) (once_err3 htwice)
  | done ncbuf blob rdBlob heap hok howns =>
    cases hbase : ok.base with
    | false => exact .failed _ hok (err4_owns howns)
    | true =>
      have hbases := howns.new.use List.mem_cons_self
      cases hev : ok.evtimeout with
      | false => exact .failed _ hok (err5_owns hbases)
      | true =>
        have hevs := hbases.new
        have hused := ((hevs.use List.mem_cons_self).use (List.mem_cons_of_mem _ List.mem_cons_self)).use
          List.mem_cons_self
        cases hncop : ok.ncop with
        | false => exact .failed _ hok (err6_owns hused)
        | true =>
          refine .opened _ hok (hused.perm ?_)
          refine (List.Perm.swap _ _ _).trans (.cons _ (.cons _ (.cons _ (.cons _ (.cons _ ?_)))))
          rw [List.append_nil]
          exact List.perm_append_comm

/-! ## Connections -/

theorem Opened.drop (h : info.Opened) : info.dropBev.Opened := Heap.Owns.freeAt h

/-- A new bufferevent where there is none. -/
theorem Opened.newBev (h : info.Opened) (hbev : info.nc.bev = none) (made : Bool) : (info.newBev made).Opened := by
  have howns : info.heap.Owns info.rest := by simpa [Opened, hbev] using h
  exact (howns.useAt _ fun _ hobj => List.mem_append_left _ (Option.mem_toList.2 hobj)).make made

theorem Opened.pass (h : info.Opened) : info.passBev.Opened :=
  Heap.Owns.useAt h _ fun _ hobj => List.mem_append_left _ (Option.mem_toList.2 hobj)

theorem Opened.connect2 (h : info.Opened) (made started : Bool) : (info.l0006NetcomConnect2 made started).2.Opened := by
  have hnew : (info.dropBev.newBev made).Opened := h.drop.newBev rfl made
  unfold l0006NetcomConnect2
  dsimp only
  split
  · exact hnew
  · cases started with
    | true => exact hnew.pass.pass.pass
    | false => exact hnew.pass.drop

/-- A connect call that fails frees its bufferevent twice. -/
theorem Opened.connect (h : info.Opened) (made started : Bool) :
    (HandleEv.connect made started).Harmless ∧ (info.l0006NetcomConnect made started).2.Opened ∨
      ¬ (HandleEv.connect made started).Harmless ∧ ¬ Once (info.l0006NetcomConnect made started).2.heap.log := by
  have hnew : (info.dropBev.newBev made).Opened := h.drop.newBev rfl made
  cases made with
  | false => exact .inl ⟨by simp [HandleEv.Harmless], hnew⟩
  | true =>
    cases started with
    | true => exact .inl ⟨by simp [HandleEv.Harmless], hnew.pass.pass.pass⟩
    | false =>
      refine .inr ⟨by simp [HandleEv.Harmless], ?_⟩
      apply Heap.not_once_free
      exact List.mem_append_right _ (List.mem_singleton_self _)

theorem Opened.disconnect (h : info.Opened) : info.l0006NetcomDisconnect.Opened := by
  have huse : ({ info with heap := info.heap.useAt info.base } : NetcomInfo α).Opened := by
    apply Heap.Owns.useAt h
    intro obj hobj
    exact List.mem_append_right _ (List.mem_append_left _ (Option.mem_toList.2 hobj))
  exact huse.drop

/-- The bufferevent is not freed. -/
theorem Opened.release (h : info.Opened) : info.l0006NetcomRelease.heap.Owns info.nc.bev.toList := by
  have hperm : info.heap.Owns (info.rest ++ info.nc.bev.toList) := Heap.Owns.perm h List.perm_append_comm
  have hbase := (hperm.useAt info.base fun obj hobj =>
    List.mem_append_left _ (List.mem_append_left _ (Option.mem_toList.2 hobj)))
  simp only [rest, List.append_assoc] at hbase
  have hev := hbase.freeAt.useAt info.evtimeout fun obj hobj =>
    List.mem_append_left _ (Option.mem_toList.2 hobj)
  exact hev.freeAt.freeAt.freeAt.freeAt.freeAt.freeAt

end NetcomInfo

/-! ## Runs -/

namespace Handle
variable [Inhabited α] {handle handle' : Handle α} {ev : HandleEv}

/-- What a handle holds. -/
def Owned (handle : Handle α) : Prop :=
  match handle.life with
  | .blank | .failed => handle.info.heap.Owns []
  | .opened => handle.info.Opened
  | .released => handle.info.heap.Owns handle.info.nc.bev.toList

omit [Inhabited α] in
theorem Owned.clean (h : handle.Owned) : handle.Clean := by
  unfold Owned at h
  refine ⟨?_, fun hfailed obj hnew => ?_⟩
  · cases hlife : handle.life <;> rw [hlife] at h <;> exact h.once
  · rw [hfailed] at h
    by_contra hfree
    cases (h.live obj).2 ⟨hnew, hfree⟩

theorem Owned.step (h : handle.Owned) (hstep : handle.step ev = some handle') :
    ev.Harmless ∧ handle'.Owned ∨ ¬ ev.Harmless ∧ ¬ Once handle'.info.heap.log := by
  cases ev with
  | init ok =>
    simp only [Handle.step, Option.ite_none_right_eq_some, Option.some.injEq] at hstep
    obtain ⟨hlife, rfl⟩ := hstep
    rw [Owned, hlife] at h
    have hinit := NetcomInfo.initialize_of h ok
    generalize handle.info.l0006NetcomInitialize ok = r at hinit ⊢
    cases hinit with
    | opened info hok howned => exact .inl ⟨hok, howned⟩
    | failed info hok howns => exact .inl ⟨hok, howns⟩
    | twice info hbad honce => exact .inr ⟨hbad, honce⟩
  | connect made started =>
    simp only [Handle.step, Option.ite_none_right_eq_some, Option.some.injEq] at hstep
    obtain ⟨hlife, rfl⟩ := hstep
    rw [Owned, hlife] at h
    rw [Owned, hlife]
    exact h.connect made started
  | connect2 made started =>
    simp only [Handle.step, Option.ite_none_right_eq_some, Option.some.injEq] at hstep
    obtain ⟨hlife, rfl⟩ := hstep
    rw [Owned, hlife] at h
    rw [Owned, hlife]
    exact .inl ⟨trivial, h.connect2 made started⟩
  | disconnect =>
    simp only [Handle.step, Option.ite_none_right_eq_some, Option.some.injEq] at hstep
    obtain ⟨hlife, rfl⟩ := hstep
    rw [Owned, hlife] at h
    rw [Owned, hlife]
    exact .inl ⟨trivial, h.disconnect⟩
  | release =>
    simp only [Handle.step, Option.ite_none_right_eq_some, Option.some.injEq] at hstep
    obtain ⟨hlife, rfl⟩ := hstep
    rw [Owned, hlife] at h
    exact .inl ⟨trivial, h.release⟩

end Handle

/-- Everything a handle makes is freed at most once and not used afterwards, and a
failed set-up leaves nothing, exactly in the runs without the two failures. -/
theorem netcom_cleanup_iff [Inhabited α] (evs : List HandleEv) (handle : Handle α)
    (hrun : exec Handle.step Handle.init evs = some handle) :
    Throughout Handle.step Handle.Clean (Handle.init : Handle α) evs ↔ ∀ ev ∈ evs, ev.Harmless := by
  have hinit : (Handle.init : Handle α).Owned := Heap.Owns.empty
  rw [← along_iff_forall hrun]
  apply throughout_iff_ok (J := Handle.Owned) _ _ hinit hinit.clean hrun
  · intro s ev t hs hok hst
    rcases hs.step hst with ⟨-, ht⟩ | ⟨hbad, -⟩
    · exact ht
    · exact absurd hok hbad
  · intro s ev t hs hst
    rcases hs.step hst with ⟨hok, ht⟩ | ⟨hbad, honce⟩
    · exact iff_of_true ht.clean hok
    · exact iff_of_false (fun hc => honce hc.1) hbad

/-- A connect call of `l0006_netcom_connect2` fails. -/
theorem netcom_cleanup_connect2 :
    Throughout Handle.step Handle.Clean (Handle.init : Handle Unit)
      [.init ⟨0, 0, true, true, true, true, true, true⟩, .connect true true, .connect2 true false,
        .disconnect, .connect2 true true, .release] := by
  obtain ⟨handle, hrun⟩ := Option.isSome_iff_exists.1 (by decide +kernel : (exec Handle.step (Handle.init : Handle Unit)
    [.init ⟨0, 0, true, true, true, true, true, true⟩, .connect true true, .connect2 true false,
      .disconnect, .connect2 true true, .release]).isSome)
  exact (netcom_cleanup_iff _ handle hrun).2 (by decide)

/-- A connect call of `l0006_netcom_connect` fails, and the bufferevent is freed twice. -/
theorem netcom_cleanup_twice : ∃ handle : Handle Unit,
    exec Handle.step Handle.init [.init ⟨0, 0, true, true, true, true, true, true⟩, .connect true false] =
        some handle ∧ ¬ Once handle.info.heap.log ∧ handle.info.heap.log.count (.free 7) = 2 := by
  refine ⟨_, rfl, ?_, ?_⟩
  · decide +kernel
  · decide +kernel

end CmdAgent
