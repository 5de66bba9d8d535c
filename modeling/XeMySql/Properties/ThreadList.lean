import XeMySql.Properties.Workers
import Mathlib.Data.List.Nodup

/-!
# The thread list

`m_ThreadList` among the clients and the workers of a pool. Inside `m_arrayCs` a thread can have been
created and not be on the list yet; outside, the list has an entry for each worker that has not
finished `RemoveThread`, and `RemoveThread` takes off the entry of its caller.

* `Listed.reply` — what one request does to the list
* `Posted.reply` — what `Stop` has read of the list, and what it has posted so far
* `threadList_exact` — the list, `RemoveThread` and the exit packets in every reachable state
-/

namespace XeMySql

open Interact

namespace ThreadPool

open Point

variable {T : Type}

/-! ## The list -/

/-- The workers that have not removed themselves. -/
def present (s : ThreadPool T) (h : List (ListEv T)) : List Nat :=
  (List.range s.threads).filter fun i => !removed h i

/-- The thread that the owner of the lock is about to put on the list. -/
def pendingOf (h : List (ListEv T)) : Lock Tid → Option ThreadInfo
  | .free => none
  | .held t _ => (points h t).pending

/-- The list has an entry for each worker that has not removed itself, up to the one that `Start` has
just created. -/
def Listed (s : ThreadPool T) (h : List (ListEv T)) : Prop :=
  s.m_ThreadList ++ (pendingOf h s.m_arrayCs).toList = (present s h).map s.info

/-- `RemoveThread` finds the entry of `j` when no other has its id. -/
theorem eraseP_own {l : List Nat} {info : Nat → ThreadInfo} {j id : Nat} (hnd : l.Nodup)
    (hj : j ∈ l) (hid : ∀ i ∈ l, (info i).m_dwThreadIdx = id ↔ i = j) :
    ∃ l₁ l₂, l = l₁ ++ j :: l₂ ∧ l.filter (· != j) = l₁ ++ l₂ ∧
      (l.map info).eraseP (·.m_dwThreadIdx == id) = (l₁ ++ l₂).map info := by
  obtain ⟨l₁, l₂, rfl⟩ := List.append_of_mem hj
  have hnd' := List.nodup_middle.mp hnd
  have hne : ∀ i ∈ l₁ ++ l₂, i ≠ j := by
    rintro i hi rfl
    exact (List.nodup_cons.mp hnd').1 hi
  refine ⟨l₁, l₂, rfl, ?_, ?_⟩
  · rw [List.filter_append, List.filter_cons_of_neg (by simp), ← List.filter_append,
      List.filter_eq_self]
    intro i hi
    exact bne_iff_ne.mpr (hne i hi)
  · rw [List.map_append, List.map_cons, List.eraseP_append_right, List.eraseP_cons_of_pos,
      List.map_append]
    · exact beq_iff_eq.mpr ((hid j hj).mpr rfl)
    · intro b hb
      obtain ⟨i, hi, rfl⟩ := List.mem_map.mp hb
      have hij := hne i (List.mem_append_left _ hi)
      simpa using mt (hid i (List.mem_append_left _ hi)).mp hij

section

variable {s s' : ThreadPool T} {h : List (ListEv T)} {t : Tid} {e : PoolOp T} {o : Outcome}
  {r : e.Reply}

theorem present_nodup : (present s h).Nodup := List.nodup_range.filter _

theorem mem_present {i : Nat} : i ∈ present s h ↔ i < s.threads ∧ removed h i = false := by
  simp [present]

/-- The ids of the workers that have not removed themselves are distinct. -/
theorem Staff.ids_present (hst : Staff s h) {i j : Nat} (hi : i ∈ present s h)
    (hj : j ∈ present s h) : (s.info i).m_dwThreadIdx = (s.info j).m_dwThreadIdx ↔ i = j := by
  obtain ⟨hlt, hri⟩ := mem_present.mp hi
  obtain ⟨hlt', hrj⟩ := mem_present.mp hj
  constructor
  · exact hst.ids i j hlt hlt' (hst.not_ended hri) (hst.not_ended hrj)
  · rintro rfl
    rfl

/-- A worker in `RemoveThread` is on the list, and looks for its own id. -/
theorem Staff.removing (hst : Staff s h) {id : Nat} (ht : points h t = .removing id) :
    ∃ j, t = .worker j ∧ id = (s.info j).m_dwThreadIdx ∧ j ∈ present s h := by
  obtain ⟨j, rfl, hlt⟩ := hst.created t (by rw [ht]; rfl)
  refine ⟨j, rfl, hst.known j id (Or.inr ht), mem_present.mpr ⟨hlt, ?_⟩⟩
  rw [Bool.eq_false_iff, ne_eq, hst.removed_iff, ht]
  rintro (hg | hend)
  · cases hg
  · rcases (hst.ended j hend).2 with hp | hp <;> (rw [ht] at hp; cases hp)

/-- What `RemoveThread` does to the list. -/
theorem Staff.erase (hst : Staff s h) {j : Nat} (hj : j ∈ present s h) :
    ∃ l₁ l₂, present s h = l₁ ++ j :: l₂ ∧ (present s h).filter (· != j) = l₁ ++ l₂ ∧
      ((present s h).map s.info).eraseP (·.m_dwThreadIdx == (s.info j).m_dwThreadIdx) =
        (l₁ ++ l₂).map s.info :=
  eraseP_own present_nodup hj fun _ hi => hst.ids_present hi hj

theorem pendingOf_move {h' : List (ListEv T)} {l' : Point} (l : Lock Tid)
    (hp : points h' = Function.update (points h) t l') (hl : l'.pending = (points h t).pending) :
    pendingOf h' l = pendingOf h l := by
  cases l with
  | free => rfl
  | held u n =>
    show (points h' u).pending = (points h u).pending
    rw [hp]
    by_cases hu : u = t
    · rw [hu, Function.update_self, hl]
    · rw [Function.update_of_ne hu]

theorem may_createThread {l : Point} (hmay : l.may (.tp .createThread : PoolOp T)) :
    ∃ i, l = .inside i ∧ i.size = none ∧ i.pending = none := by
  cases l with
  | inside i => exact ⟨i, rfl, hmay⟩
  | worker id => cases id <;> exact hmay.elim
  | _ => exact hmay.elim

theorem may_pushBack {l : Point} {info : ThreadInfo}
    (hmay : l.may (.tp (.pushBack info) : PoolOp T)) :
    ∃ i, l = .inside i ∧ i.size = none ∧ i.pending = some info := by
  cases l with
  | inside i => exact ⟨i, rfl, hmay⟩
  | worker id => cases id <;> exact hmay.elim
  | _ => exact hmay.elim

theorem may_waitForMultipleObjects {l : Point} {hs : List Nat}
    (hmay : l.may (.tp (.waitForMultipleObjects hs) : PoolOp T)) :
    ∃ i, l = .inside i ∧ i.size = some i.posted ∧ i.closed = false := by
  cases l with
  | inside i => exact ⟨i, rfl, hmay⟩
  | worker id => cases id <;> exact hmay.elim
  | _ => exact hmay.elim

/-- Where `Stop` leaves the lock, it has posted as many exit packets as the list is long. -/
theorem may_unLock_stops {l : Point} (hmay : l.may (.tp .unLock : PoolOp T)) (hl : l.stops = true) :
    ∃ i, l = .inside i ∧ i.pending = none ∧ i.size = some i.posted := by
  cases l with
  | inside i => exact ⟨i, rfl, hmay.1, hmay.2 hl⟩
  | removed => cases hl
  | worker id => cases id <;> exact hmay.elim
  | _ => exact hmay.elim

/-- A request other than `RemoveThread`'s removes nobody. -/
theorem removed_reply_of_ne (hne : ∀ id, e ≠ .tp (.remove id)) :
    removed (.reply t e r :: h) = removed h := by
  funext i
  rw [Bool.eq_iff_iff, removed_reply]
  constructor
  · rintro (⟨-, id, rfl⟩ | hi)
    · exact absurd rfl (hne id)
    · exact hi
  · exact Or.inr

/-- The pending thread of the thread that is inside the lock. -/
theorem Guarded.pendingOf_eq (hg : Guarded s h) (hin : (points h t).locked = true) :
    pendingOf h s.m_arrayCs = (points h t).pending := by
  rw [(hg.inside_iff t).mp hin]
  rfl

/-- What it makes pending, where the lock stays as it is. -/
theorem Guarded.pendingOf_reply (hg : Guarded s h) (hin : (points h t).locked = true) :
    pendingOf (.reply t e r :: h) s.m_arrayCs = ((points h t).next e r).pending := by
  rw [(hg.inside_iff t).mp hin, ← points_reply_self (r := r)]
  rfl

namespace Listed

/-- `CreateThread`: the new worker is not on the list yet. -/
theorem createThread {o : Outcome} {info : ThreadInfo} (hl : Listed s h) (hg : Guarded s h)
    (hst : Staff s h) (hmay : (points h t).may (.tp .createThread : PoolOp T))
    (he : poolExec t (.tp .createThread) o s = some (s', some info)) :
    Listed s' (.reply t (.tp .createThread) info :: h) := by
  obtain ⟨i, hi, -, hnone⟩ := may_createThread hmay
  have hpend : pendingOf h s.m_arrayCs = none := by
    rw [hg.pendingOf_eq (congrArg locked hi), hi]
    exact hnone
  obtain ⟨-, rfl⟩ := createThread_spec he
  unfold Listed at hl ⊢
  rw [hpend, Option.toList_none, List.append_nil] at hl
  have hnew : removed h s.threads = false :=
    Bool.eq_false_iff.mpr fun hr => Nat.lt_irrefl _ (hst.lt_of_removed hr)
  have hinfo : (present s h).map (Function.update s.info s.threads info) =
      (present s h).map s.info := by
    refine List.map_congr_left fun j hj => ?_
    exact Function.update_of_ne (Nat.ne_of_lt (mem_present.mp hj).1) ..
  have hpend' : pendingOf (.reply t (.tp .createThread) info :: h) s.m_arrayCs = some info := by
    rw [hg.pendingOf_reply (congrArg locked hi), hi]
    rfl
  have hremoved : removed (.reply t (.tp .createThread) info :: h) = removed h :=
    removed_reply_of_ne nofun
  rw [hpend', present, hremoved]
  show _ = ((List.range (s.threads + 1)).filter fun i => !removed h i).map _
  rw [List.range_succ, List.filter_append, List.map_append]
  show _ = (present s h).map _ ++ _
  rw [hinfo, ← hl]
  simp [hnew]

/-- `push_back`: it is now. -/
theorem pushBack {info : ThreadInfo} (hl : Listed s h) (hg : Guarded s h)
    (hmay : (points h t).may (.tp (.pushBack info) : PoolOp T))
    (he : poolExec t (.tp (.pushBack info)) o s = some (s', some ())) :
    Listed s' (.reply t (.tp (.pushBack info)) () :: h) := by
  obtain ⟨i, hi, -, hsome⟩ := may_pushBack hmay
  have hpend : pendingOf h s.m_arrayCs = some info := by
    rw [hg.pendingOf_eq (congrArg locked hi), hi]
    exact hsome
  have hpend' : pendingOf (.reply t (.tp (.pushBack info)) () :: h) s.m_arrayCs = none := by
    rw [hg.pendingOf_reply (congrArg locked hi), hi]
    rfl
  have hremoved : removed (.reply t (.tp (.pushBack info)) () :: h) = removed h :=
    removed_reply_of_ne nofun
  cases he
  unfold Listed at hl ⊢
  rw [hpend, Option.toList_some] at hl
  rw [hpend', present, hremoved, Option.toList_none, List.append_nil]
  exact hl

/-- `RemoveThread`: the caller's entry, and no other, is taken off the list. -/
theorem remove {id : Nat} (hl : Listed s h) (hg : Guarded s h) (hst : Staff s h)
    (hmay : (points h t).may (.tp (.remove id) : PoolOp T))
    (he : poolExec t (.tp (.remove id)) o s = some (s', some ())) :
    Listed s' (.reply t (.tp (.remove id)) () :: h) := by
  have hp := may_remove hmay
  obtain ⟨j, rfl, rfl, hj⟩ := hst.removing hp
  obtain ⟨l₁, l₂, -, hfilter, herase⟩ := hst.erase hj
  have hpend : pendingOf h s.m_arrayCs = none := by
    rw [hg.pendingOf_eq (congrArg locked hp), hp]
    rfl
  have hpend' : pendingOf (.reply (.worker j) (.tp (.remove (s.info j).m_dwThreadIdx)) () :: h)
      s.m_arrayCs = none := by
    rw [hg.pendingOf_reply (congrArg locked hp), hp]
    rfl
  have hpresent : present s (.reply (.worker j) (.tp (.remove (s.info j).m_dwThreadIdx)) () :: h) =
      (present s h).filter (· != j) := by
    rw [present, present, List.filter_filter]
    refine List.filter_congr fun i _ => ?_
    have hij : (Tid.worker j = .worker i) ↔ i = j := by
      rw [Tid.worker.injEq]
      exact eq_comm
    rw [Bool.eq_iff_iff, Bool.not_eq_true', Bool.eq_false_iff, ne_eq, removed_reply, hij]
    simp
  cases he
  unfold Listed at hl ⊢
  rw [hpend, Option.toList_none, List.append_nil] at hl
  rw [hpend', Option.toList_none, List.append_nil]
  show s.m_ThreadList.eraseP _ = (present s _).map s.info
  rw [hpresent, hfilter, hl, herase]

/-- Any other request of a thread that has nothing pending, or keeps it. -/
theorem stay (hl : Listed s h) (hlist : s'.m_ThreadList = s.m_ThreadList)
    (hthreads : s'.threads = s.threads ∧ s'.info = s.info) {h' : List (ListEv T)}
    (hremoved : removed h' = removed h)
    (hpend : pendingOf h' s'.m_arrayCs = pendingOf h s.m_arrayCs) : Listed s' h' := by
  unfold Listed at hl ⊢
  rw [hlist, hpend, hl, present, present, hremoved, hthreads.1, hthreads.2]

/-- **Step lemma of the list.** -/
theorem reply (hl : Listed s h) (hg : Guarded s h) (hst : Staff s h) (hmay : (points h t).may e)
    (he : poolExec t e o s = some (s', some r)) : Listed s' (.reply t e r :: h) := by
  cases hlist : e.changes .list with
  | true =>
    obtain ⟨info, rfl⟩ | ⟨id, rfl⟩ := changes_list hlist
    · exact hl.pushBack hg hmay he
    · exact hl.remove hg hst hmay he
  | false =>
    have hne : ∀ id, e ≠ .tp (.remove id) := by
      rintro id rfl
      cases hlist
    cases hthreads : e.changes .threads with
    | true =>
      obtain rfl := changes_threads hthreads
      exact hl.createThread hg hst hmay he
    | false =>
      have hframe := poolExec_frame he
      refine hl.stay (hframe.list hlist) (hframe.threads hthreads) (removed_reply_of_ne hne) ?_
      cases hlock : e.changes .lock with
      | false =>
        rw [hframe.lock hlock]
        exact pendingOf_move _ points_reply ((next_moves _ r).pending hlock hlist hthreads)
      | true =>
        -- the lock is free before or behind the request, and its owner has nothing pending
        have hg' := hg.reply hmay he
        obtain rfl | rfl := changes_lock hlock
        · obtain ⟨-, hin, -, hnone⟩ := may_lock hmay
          rw [(hg.lock hmay he).1, hg'.pendingOf_eq (by rw [points_reply_self]; exact hin),
            points_reply_self]
          exact hnone
        · obtain ⟨hin, -, hnone⟩ := may_unLock hmay
          rw [(hg.unLock he).1, hg.pendingOf_eq hin]
          exact hnone.symm

end Listed

end

/-! ## The exit packets -/

/-- What a client inside the lock knows is true: how long the list is, and the port; and it has posted
as many exit packets as it thinks, all to the port, which takes them if it is open. -/
structure Account (s : ThreadPool T) (i : Inside) (posts : List (Nat × Option Nat)) : Prop where
  size : ∀ n, i.size = some n → n = s.m_ThreadList.length ∧ i.pending = none
  before : i.size = none → posts = []
  length : posts.length = i.posted
  port : ∀ p, i.port = some p → p = s.m_hWorkerIoPort
  target : ∀ x ∈ posts, x.1 = s.m_hWorkerIoPort
  accepted : i.closed = false → ∀ x ∈ posts, x.2.isSome = (s.port x.1).opened

/-- The exit packets of the present calls. -/
structure Posted (s : ThreadPool T) (h : List (ListEv T)) : Prop where
  outside : ∀ t b, points h t = .outside b → exitPosts t h = []
  inside : ∀ t i, points h t = .inside i → Account s i (exitPosts t h)

section

variable {s s' : ThreadPool T} {h : List (ListEv T)} {t u : Tid} {e : PoolOp T} {o : Outcome}
  {r : e.Reply} {i j : Inside} {posts : List (Nat × Option Nat)}

theorem exitPosts_reply : exitPosts u (.reply t e r :: h) =
    if t = u then (exitPost ⟨e, r⟩).toList ++ exitPosts u h else exitPosts u h := by
  unfold exitPosts
  rw [callTrace_reply]
  split
  · rw [List.filterMap_cons]
    cases exitPost ⟨e, r⟩ <;> rfl
  · rfl

namespace Account

theorem init (s : ThreadPool T) (b : Bool) : Account s { stopping := b } [] where
  size _ hn := nomatch hn
  before _ := rfl
  length := rfl
  port _ hp := nomatch hp
  target _ hx := nomatch hx
  accepted _ _ hx := nomatch hx

/-- Nobody has touched the list, nor the port. -/
theorem stay (ha : Account s i posts) (hlist : s'.m_ThreadList = s.m_ThreadList)
    (hport : s'.m_hWorkerIoPort = s.m_hWorkerIoPort ∧ ∀ p, (s'.port p).opened = (s.port p).opened) :
    Account s' i posts := by
  refine ⟨?_, ha.before, ha.length, ?_, ?_, ?_⟩
  · rw [hlist]
    exact ha.size
  · rw [hport.1]
    exact ha.port
  · rw [hport.1]
    exact ha.target
  · intro hc x hx
    rw [hport.2]
    exact ha.accepted hc x hx

/-- In `Start`, nothing has been posted. -/
theorem starting (ha : Account s i posts) (hs : i.size = none) (hj : j.size = none)
    (hposted : j.posted = i.posted) (hport : ∀ p, j.port = some p → p = s'.m_hWorkerIoPort) :
    Account s' j posts := by
  obtain rfl := ha.before hs
  refine ⟨fun n hn => ?_, fun _ => rfl, by rw [hposted, ha.length], hport, nofun, fun _ => nofun⟩
  rw [hj] at hn
  cases hn

/-- An exit packet is posted. -/
theorem post {p : Nat} {r : Option Nat} (ha : Account s i posts) (hsize : i.size.isSome)
    (hp : i.port = some p) (hc : i.closed = false)
    (he : poolExec t (.tp (.post p .exit)) o s = some (s', some r)) :
    Account s' { i with posted := i.posted + 1 } ((p, r) :: posts) := by
  have hframe := poolExec_frame he
  obtain ⟨hsame, hopened⟩ := hframe.port rfl
  have hstay := ha.stay (hframe.list rfl) (hframe.port rfl)
  refine ⟨hstay.size, fun hnone => ?_, ?_, hstay.port, List.forall_mem_cons.mpr ⟨?_, hstay.target⟩,
    fun _ => List.forall_mem_cons.mpr ⟨?_, ?_⟩⟩
  · rw [show i.size = none from hnone] at hsize
    cases hsize
  · rw [List.length_cons, ha.length]
  · rw [hsame]
    exact ha.port p hp
  · rw [hopened]
    have he : s.exec t (.post p .exit) o = some (s', some r) := he
    simp only [exec] at he
    split at he
    · next hopen =>
      cases he
      exact hopen.symm
    · next hclosed =>
      cases he
      exact (Bool.eq_false_iff.mpr hclosed).symm
  · exact hstay.accepted hc

/-- **What a client does inside the lock.** -/
theorem next (ha : Account s i posts) (hmay : (Point.inside i).may e)
    (he : poolExec t e o s = some (s', some r)) (hj : (Point.inside i).next e r = .inside j) :
    Account s' j ((exitPost ⟨e, r⟩).toList ++ posts) := by
  have hframe := poolExec_frame he
  cases e with
  | processTask k => exact hmay.elim
  | tp e =>
    cases e with
    | createPort =>
      cases hj
      cases he
      exact ha.starting hmay hmay rfl ha.port
    | setPort p =>
      cases hj
      exact ha.starting hmay hmay rfl nofun
    | createThread =>
      cases hj
      refine ha.starting hmay.1 hmay.1 rfl fun p hp => ?_
      rw [(hframe.port rfl).1]
      exact ha.port p hp
    | pushBack info =>
      cases hj
      cases he
      exact ha.starting hmay.1 hmay.1 rfl ha.port
    | getPort =>
      cases hj
      cases he
      exact ⟨ha.size, ha.before, ha.length, fun p hp => (Option.some.inj hp).symm, ha.target,
        ha.accepted⟩
    | size =>
      cases hj
      cases he
      exact ⟨fun n hn => ⟨(Option.some.inj hn).symm, hmay.2⟩, nofun, ha.length, ha.port, ha.target,
        ha.accepted⟩
    | newHandles n =>
      cases hj
      exact ha.stay (hframe.list rfl) (hframe.port rfl)
    | waitForMultipleObjects hs =>
      cases hj
      exact ha.stay (hframe.list rfl) (hframe.port rfl)
    | closeHandle p =>
      cases hj
      cases he
      exact ⟨ha.size, ha.before, ha.length, ha.port, ha.target, nofun⟩
    | post p pkt =>
      cases pkt with
      | exit =>
        cases hj
        exact ha.post hmay.1 hmay.2.1 hmay.2.2 he
      | job pWorker pTask => exact hmay.elim
    | unLock => cases hj
    | _ => exact hmay.elim

end Account

namespace Posted

theorem init : Posted (new T) [] := ⟨fun _ _ _ => rfl, nofun⟩

/-- **Step lemma of the exit packets.** -/
theorem reply (hpo : Posted s h) (hg : Guarded s h) (hmay : (points h t).may e)
    (he : poolExec t e o s = some (s', some r)) : Posted s' (.reply t e r :: h) := by
  refine ⟨fun u b hu => ?_, fun u i hu => ?_⟩
  · rw [exitPosts_reply]
    by_cases hut : t = u
    · subst hut
      rw [points_reply_self] at hu
      have hl := (next_moves _ r).outside hu
      rw [hl] at hmay
      rw [if_pos rfl, may_outside_exitPost hmay, hpo.outside t b hl]
      rfl
    · rw [points_reply_of_ne (Ne.symm hut)] at hu
      rw [if_neg hut, hpo.outside u b hu]
  · rw [exitPosts_reply]
    by_cases hut : t = u
    · subst hut
      rw [points_reply_self] at hu
      rw [if_pos rfl]
      rcases (next_moves _ r).inside hu with ⟨j, hj⟩ | ⟨b, hl, rfl, rfl⟩
      · rw [hj] at hmay hu
        exact (hpo.inside t j hj).next hmay he hu
      · rw [hpo.outside t b hl]
        exact .init s' b
    · -- the lock keeps this thread away from the list and the port
      rw [points_reply_of_ne (Ne.symm hut)] at hu
      rw [if_neg hut]
      have hout : (points h t).locked = false := by
        rw [Bool.eq_false_iff]
        exact fun hin => hut (Lock.Guards.unique hg hin (congrArg locked hu))
      obtain ⟨hlist, hport⟩ := may_outside hmay hout
      have hframe := poolExec_frame he
      exact (hpo.inside u i hu).stay (hframe.list hlist) (hframe.port hport)

/-- A thread begins a call, or ends one. -/
theorem move {h' : List (ListEv T)} {l : Point} (hpo : Posted s h)
    (hp : points h' = Function.update (points h) t l) (hl : ∀ i, l ≠ .inside i)
    (hself : exitPosts t h' = []) (hother : ∀ u, t ≠ u → exitPosts u h' = exitPosts u h) :
    Posted s h' := by
  refine ⟨fun u b hu => ?_, fun u i hu => ?_⟩
  · by_cases hut : t = u
    · exact hut ▸ hself
    · rw [hp, Function.update_of_ne (Ne.symm hut)] at hu
      rw [hother u hut, hpo.outside u b hu]
  · by_cases hut : t = u
    · rw [← hut, hp, Function.update_self] at hu
      exact absurd hu (hl i)
    · rw [hp, Function.update_of_ne (Ne.symm hut)] at hu
      rw [hother u hut]
      exact hpo.inside u i hu

theorem call {c : ListCall T} (hpo : Posted s h) : Posted s (.call t c :: h) := by
  refine hpo.move points_call (fun i hi => ?_) ?_ fun u hu => ?_
  · cases c <;> cases hi
  · rw [exitPosts, callTrace_call, if_pos rfl]
    rfl
  · rw [exitPosts, callTrace_call, if_neg hu]
    rfl

theorem done {c : ListCall T} {a : Bool} (hpo : Posted s h) : Posted s (.done t c a :: h) := by
  refine hpo.move points_done (fun i hi => nomatch hi) ?_ fun u hu => ?_
  · rw [exitPosts, callTrace_done, if_pos rfl]
    rfl
  · rw [exitPosts, callTrace_done, if_neg hu]
    rfl

end Posted

end

/-! ## Every run -/

/-- What holds of the pool in every reachable state. -/
structure ListInv (s : ThreadPool T) (h : List (ListEv T)) : Prop where
  guarded : Guarded s h
  staff : Staff s h
  listed : Listed s h
  posted : Posted s h

/-- A call begins outside of the lock. -/
theorem start_plain (t : Tid) (c : ListCall T) :
    (Point.start t c).locked = false ∧ (Point.start t c).pending = none := by
  cases c <;> exact ⟨rfl, rfl⟩

/-- It ends outside as well. -/
theorem final_plain {c : ListCall T} {a : Bool} {l : Point} (hf : final c a l) :
    l.locked = false ∧ l.pending = none := by
  cases c with
  | workerProc =>
    cases a with
    | true =>
      obtain ⟨id, rfl⟩ := hf
      exact ⟨rfl, rfl⟩
    | false =>
      cases hf
      exact ⟨rfl, rfl⟩
  | _ =>
    cases hf
    exact ⟨rfl, rfl⟩

theorem list_kept : (listMachine T).Kept (fun _ _ => True) (new T) Point.discipline .idle
    Point.start final ListInv where
  code t c _ := c.follows t
  init := ⟨.init, .init, rfl, .init⟩
  call s h t c hI _ hen hidle := by
    have hmove := points_call (t := t) (c := c) (h := h)
    obtain ⟨hlocked, hpending⟩ := start_plain t c
    refine ⟨?_, hI.staff.call hen hidle, ?_, hI.posted.call⟩
    · unfold Guarded
      rw [hmove, Function.comp_update]
      exact hI.guarded.stay (hlocked.trans (congrArg locked hidle.symm))
    · refine hI.listed.stay rfl ⟨rfl, rfl⟩ rfl (pendingOf_move _ hmove ?_)
      exact hpending.trans (congrArg Point.pending hidle.symm)
  wait s h t e o s' hI _ he := by
    obtain rfl := poolExec_wait he
    exact hI
  reply s h t e o s' r hI hmay he :=
    ⟨trivial, hI.guarded.reply hmay he, hI.staff.reply hmay he,
      hI.listed.reply hI.guarded hI.staff hmay he, hI.posted.reply hI.guarded hmay he⟩
  done s h t c a hI hf := by
    have hmove := points_done (t := t) (c := c) (a := a) (h := h)
    obtain ⟨hlocked, hpending⟩ := final_plain hf
    refine ⟨?_, hI.staff.done hf, ?_, hI.posted.done⟩
    · unfold Guarded
      rw [hmove, Function.comp_update]
      exact hI.guarded.stay hlocked.symm
    · exact hI.listed.stay rfl ⟨rfl, rfl⟩ rfl (pendingOf_move _ hmove hpending.symm)

/-- The workers created so far that have not finished `RemoveThread`. -/
def unfinished (s : ListSys T) : List Nat :=
  (List.range s.shared.threads).filter fun i => !finished s.hist i

/-- It has waited, closed the port, and left the lock. -/
def StopDone (l : List (Answer (PoolOp T) PoolOp.Reply)) : Prop :=
  ∃ hs p l', l = ⟨.tp .unLock, ()⟩ :: ⟨.tp (.closeHandle p), ()⟩ :: ⟨.tp .getPort, p⟩ ::
    ⟨.tp (.waitForMultipleObjects hs), ()⟩ :: l'

/-- **The thread list is exact**: outside of the lock it has one entry for each worker that has not
finished `RemoveThread`; the ids on it are distinct; `RemoveThread` takes off the entry of its caller
and no other. When `Stop` comes to its wait, it has posted one exit packet for each entry, to the port,
which has taken it if it is open; they are as many as there are entries when it leaves the lock; and it
returns only after that. -/
structure Exact (s : ListSys T) : Prop where
  list : s.shared.m_arrayCs = .free → s.shared.m_ThreadList = (unfinished s).map s.shared.info
  ids : (s.shared.m_ThreadList.map (·.m_dwThreadIdx)).Nodup
  remove : ∀ t c id, (s.thread t).asking = some (c, .tp (.remove id)) → ∃ i l₁ l₂,
    t = .worker i ∧ s.shared.m_ThreadList = l₁ ++ s.shared.info i :: l₂ ∧
      ∀ o, poolExec t (.tp (.remove id)) o s.shared =
        some ({ s.shared with m_ThreadList := l₁ ++ l₂ }, some ())
  exits : ∀ t c hs, (s.thread t).asking = some (c, .tp (.waitForMultipleObjects hs)) →
    s.shared.m_ThreadList = (unfinished s).map s.shared.info ∧
      (exitPosts t s.hist).length = s.shared.m_ThreadList.length ∧
      ∀ x ∈ exitPosts t s.hist, x.1 = s.shared.m_hWorkerIoPort ∧
        x.2.isSome = (s.shared.port x.1).opened
  stop : ∀ t, (s.thread t).asking = some (.stop, .tp .unLock) →
    s.shared.m_ThreadList = (unfinished s).map s.shared.info ∧
      (exitPosts t s.hist).length = s.shared.m_ThreadList.length ∧
      ∀ x ∈ exitPosts t s.hist, x.1 = s.shared.m_hWorkerIoPort
  returned : ∀ t a, (s.thread t).returning = some (.stop, a) → StopDone (callTrace t s.hist)

namespace ListInv

variable {s : ListSys T} {t : Tid}

/-- Nothing is pending: the list has an entry for each worker that has not removed itself. -/
theorem list_eq (hI : ListInv s.shared s.hist) (hp : pendingOf s.hist s.shared.m_arrayCs = none) :
    s.shared.m_ThreadList = (present s.shared s.hist).map s.shared.info := by
  have hl := hI.listed
  unfold Listed at hl
  rwa [hp, Option.toList_none, List.append_nil] at hl

/-- With no worker between the removal of its entry and the end of `RemoveThread`, these are the workers
that have not finished it. -/
theorem present_eq (hI : ListInv s.shared s.hist)
    (hno : ∀ i, points s.hist (.worker i) ≠ .removed) :
    present s.shared s.hist = unfinished s := by
  refine List.filter_congr fun i _ => congrArg _ ?_
  rw [Bool.eq_iff_iff, hI.staff.removed_iff, hI.staff.finished_iff]
  refine or_congr_left ?_
  have hi := hno i
  revert hi
  cases points s.hist (.worker i) with
  | removed => exact fun hi => absurd rfl hi
  | _ => exact fun _ => Iff.rfl

/-- The ids on the list are distinct, whoever is inside the lock. -/
theorem ids_nodup (hI : ListInv s.shared s.hist) :
    (s.shared.m_ThreadList.map (·.m_dwThreadIdx)).Nodup := by
  have hpresent : (((present s.shared s.hist).map s.shared.info).map (·.m_dwThreadIdx)).Nodup := by
    rw [List.map_map]
    exact present_nodup.map_on fun i hi j hj hij => (hI.staff.ids_present hi hj).mp hij
  rw [← hI.listed, List.map_append] at hpresent
  exact hpresent.of_append_left

/-- In the lock of a client, with nothing pending, the list is exact. -/
theorem list_inside (hI : ListInv s.shared s.hist) {i : Inside} (hp : points s.hist t = .inside i)
    (hnone : i.pending = none) : s.shared.m_ThreadList = (unfinished s).map s.shared.info := by
  have hpend : pendingOf s.hist s.shared.m_arrayCs = none :=
    (hI.guarded.pendingOf_eq (congrArg locked hp)).trans ((congrArg Point.pending hp).trans hnone)
  rw [hI.list_eq hpend, hI.present_eq fun j hj => ?_]
  -- a worker that has removed itself would be inside the lock, like this client
  have htj := Lock.Guards.unique hI.guarded (congrArg locked hp) (congrArg locked hj)
  rw [htj] at hp
  cases hj.symm.trans hp

end ListInv

/-- Where a thread is that is in `Stop`. -/
theorem stops_of_call {h : List (ListEv T)} {t : Tid} (hc : presentCall t h = some .stop) :
    (points h t).stops = true := by
  induction h with
  | nil => cases hc
  | cons ev h ih =>
    cases ev with
    | call u c =>
      rw [presentCall] at hc
      rw [points_call]
      split at hc
      · next hu =>
        cases hc
        rw [hu, Function.update_self]
        rfl
      · next hu =>
        rw [Function.update_of_ne (Ne.symm hu)]
        exact ih hc
    | reply u e r =>
      by_cases hu : t = u
      · subst hu
        rw [points_reply_self]
        exact (next_moves _ r).stops (ih hc)
      · rw [points_reply_of_ne hu]
        exact ih hc
    | done u c a =>
      rw [presentCall] at hc
      rw [points_done]
      split at hc
      · cases hc
      · next hu =>
        rw [Function.update_of_ne (Ne.symm hu)]
        exact ih hc

/-- `Stop` ends with that. -/
theorem stop_done : (ListCall.stop : ListCall T).code.Follows
    (.recording (fun _ _ => True) fun _ _ _ => True) [] fun _ l => StopDone l := by
  have hstop : (asPool (ThreadPool.stop : Code T Unit)).Follows
      (.recording (fun _ _ => True) fun _ _ _ => True) [] fun _ l => StopDone l := by
    refine ⟨trivial, fun _ _ => ⟨trivial, fun n _ => ⟨trivial, fun hs _ => ?_⟩⟩⟩
    show (asPool (postExits n >>= fun _ => closeDown hs : Code T Unit)).Follows _ _ _
    rw [asPool, Prog.lift_bind]
    refine (Prog.follows_true fun _ _ => trivial).bind fun _ l _ => ?_
    exact ⟨trivial, fun _ _ => ⟨trivial, fun p _ => ⟨trivial, fun _ _ => ⟨trivial, fun _ _ =>
      ⟨hs, p, l, rfl⟩⟩⟩⟩⟩
  exact hstop.bind fun _ _ hl => hl

/-- **In every reachable state**, whatever the clients and the workers do. -/
theorem threadList_exact {s : ListSys T} (h : (listMachine T).Reach (fun _ _ => True) (new T) s) :
    Exact s := by
  obtain ⟨hI, -⟩ := list_kept.holds h
  refine ⟨fun hfree => ?_, hI.ids_nodup, fun t c id ht => ?_, fun t c hs ht => ?_, fun t ht => ?_,
    fun t a ht => ?_⟩
  · have hfreeGuard : Lock.Guards .free (locked ∘ points s.hist) := hfree ▸ hI.guarded
    rw [hI.list_eq (by rw [hfree]; rfl), hI.present_eq fun i hi => ?_]
    have hout := hfreeGuard.not_inside (.worker i)
    rw [Function.comp_apply, hi] at hout
    cases hout
  · obtain ⟨k, ht⟩ := Thread.asking_eq_some ht
    have hp := may_remove (list_kept.may h ht)
    obtain ⟨j, rfl, rfl, hj⟩ := hI.staff.removing hp
    obtain ⟨l₁, l₂, hmem, -, herase⟩ := hI.staff.erase hj
    have hlist := hI.list_eq
      ((hI.guarded.pendingOf_eq (congrArg locked hp)).trans (congrArg Point.pending hp))
    refine ⟨j, l₁.map s.shared.info, l₂.map s.shared.info, rfl, ?_, fun o => ?_⟩
    · rw [hlist, hmem, List.map_append, List.map_cons]
    · show some (_, some ()) = some (_, some ())
      rw [hlist, herase, List.map_append]
  · obtain ⟨k, ht⟩ := Thread.asking_eq_some ht
    obtain ⟨i, hp, hsize, hclosed⟩ := may_waitForMultipleObjects (list_kept.may h ht)
    have haccount := hI.posted.inside t i hp
    obtain ⟨hn, hnone⟩ := haccount.size _ hsize
    exact ⟨hI.list_inside hp hnone, haccount.length.trans hn,
      fun x hx => ⟨haccount.target x hx, haccount.accepted hclosed x hx⟩⟩
  · obtain ⟨k, ht⟩ := Thread.asking_eq_some ht
    obtain ⟨i, hp, hnone, hsize⟩ := may_unLock_stops (list_kept.may h ht) (stops_of_call (h.present ht))
    have haccount := hI.posted.inside t i hp
    exact ⟨hI.list_inside hp hnone, haccount.length.trans (haccount.size _ hsize).1, haccount.target⟩
  · exact h.answered (fun _ _ _ _ _ _ _ _ => trivial) (fun _ => stop_done)
      (Thread.returning_eq_some ht)

/-- A worker is started; `Stop` finds no handles in its array, closes the port and leaves; and the
worker, which has not got its exit packet, is in `RemoveThread`. -/
theorem threadList_exact_stopped : ∃ s : ListSys Nat,
    (s.thread (.worker 0)).asking = some (.workerProc, .tp (.remove 7)) ∧
      s.shared.m_ThreadList = [⟨7, 0⟩] ∧ Exact s := by
  let client : Outcome → Label Tid (ListCall Nat) Outcome := .act (.client 0)
  let worker : Label Tid (ListCall Nat) Outcome := .act (.worker 0) .success
  let acts : List (Label Tid (ListCall Nat) Outcome) :=
    .call (.client 0) (.start 1) :: List.replicate 7 (client { number := 7 }) ++
      [.call (.worker 0) .workerProc, worker, worker] ++
      .call (.client 0) .stop :: List.replicate 10 (client { values := [9] }) ++
      [worker, worker]
  have hrun : ((listMachine Nat).run acts (.init (new Nat))).map
      (fun s => ((s.thread (.worker 0)).asking, s.shared.m_ThreadList)) =
        some (some (.workerProc, .tp (.remove 7)), [⟨7, 0⟩]) := rfl
  obtain ⟨s, hs, hl⟩ := Option.map_eq_some_iff.mp hrun
  have hr : (listMachine Nat).Reach (fun _ _ => True) (new Nat) s :=
    Machine.Reach.init.run (fun _ _ _ _ _ => trivial) hs
  exact ⟨s, congrArg Prod.fst hl, congrArg Prod.snd hl, threadList_exact hr⟩

end ThreadPool

end XeMySql
