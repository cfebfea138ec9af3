import Mathlib.Logic.Function.Basic
import MarkitNode.CString
import MarkitNode.Machine
import MarkitNode.NodeControl
import MarkitNode.StatusCodes

/-!
The sockets of a debug session. Each `GET` starts a task of its own, which gets the address
of a structure on the stack of the HTTP server; the tasks share a mutex, so that one of them
at a time streams what the IMU sends. The mutex is created by the first task that finds none:
two tasks that find none at the same time get one each, and both stream.
-/

namespace MarkitNode

namespace DebugSocket

open CString NodeControl

/-- `CONFIG_WEBSOCKET_FRAM_MAX_LEN` -/
abbrev websocketFramMaxLen : Nat := 64

/-! ### From the socket to the IMU -/

/-- What `httpd_ws_recv_frame` gives: an error, or a frame, text or not. -/
inductive Received
  | failed
  | frame (isText : Bool) (payload : List UInt8)
  deriving DecidableEq

/-- `imu_debug_socket_handler` on a frame, with what it writes to the IMU. `buf` and `tx_buffer`
are the arrays on its stack; the result is `none` if it leaves one. -/
def proxyFrame (buf : Vector UInt8 (websocketFramMaxLen + 1))
    (txBuffer : Vector UInt8 (websocketFramMaxLen + 2)) :
    Received → Option (EspErr × Option (List UInt8))
  | .failed => some (.fail, none)
  | .frame isText payload =>
      if payload.length ≤ websocketFramMaxLen then
        if isText then do
          let buf ← memcpy buf payload
          let buf ← assign buf payload.length 0
          if payload.length = 0 then return (.ok, none)
          else
            let txBuffer ← memcpy txBuffer (buf.toList.take payload.length)
            let txBuffer ← assign txBuffer payload.length 13
            let txBuffer ← assign txBuffer (payload.length + 1) 10
            return (.ok, some (txBuffer.toList.take (payload.length + 2)))
        else some (.fail, none)
      else some (.ok, none)

/-- A text of 1 to 64 bytes goes to the IMU with an end of line, and no array is left. -/
theorem proxyFrame_text (buf : Vector UInt8 (websocketFramMaxLen + 1))
    (txBuffer : Vector UInt8 (websocketFramMaxLen + 2)) {payload : List UInt8}
    (hne : payload ≠ []) (hlen : payload.length ≤ websocketFramMaxLen) :
    proxyFrame buf txBuffer (.frame true payload) = some (.ok, some (payload ++ [13, 10])) := by
  have hnonempty : ¬ payload.length = 0 := by simpa using hne
  have hdrop : (txBuffer.toList.drop payload.length).length =
      websocketFramMaxLen + 2 - payload.length := by
    rw [List.length_drop, Vector.length_toList]
  obtain ⟨x, y, rest, hrest⟩ : ∃ x y rest,
      txBuffer.toList.drop payload.length = x :: y :: rest := by
    rcases hlist : txBuffer.toList.drop payload.length with _ | ⟨x, _ | ⟨y, rest⟩⟩
    · rw [hlist, List.length_nil] at hdrop
      omega
    · rw [hlist, List.length_singleton] at hdrop
      omega
    · exact ⟨x, y, rest, rfl⟩
  obtain ⟨buf₁, hbuf₁, hlist₁⟩ := memcpy_toList buf (Nat.le_succ_of_le hlen)
  obtain ⟨buf₂, hbuf₂, hlist₂⟩ := assign_toList buf₁ (Nat.lt_succ_of_le hlen) 0
  have hpayload : buf₂.toList.take payload.length = payload := by
    rw [hlist₂, hlist₁, List.set_append_right _ _ (Nat.le_refl _), List.take_left]
  obtain ⟨tx₁, htx₁, hfirst⟩ := memcpy_toList txBuffer
    (show payload.length ≤ websocketFramMaxLen + 2 by omega)
  obtain ⟨tx₂, htx₂, hsecond⟩ := assign_toList tx₁
    (show payload.length < websocketFramMaxLen + 2 by omega) 13
  obtain ⟨tx₃, htx₃, hthird⟩ := assign_toList tx₂
    (show payload.length + 1 < websocketFramMaxLen + 2 by omega) 10
  have hsent : tx₃.toList.take (payload.length + 2) = payload ++ [13, 10] := by
    have hone : payload.length.succ - payload.length = 1 := by omega
    rw [hthird, hsecond, hfirst, hrest, List.set_append_right _ _ (Nat.le_refl _), Nat.sub_self,
      List.set_cons_zero, List.set_append_right _ _ (Nat.le_succ _), hone, List.set_cons_succ,
      List.set_cons_zero, List.take_length_add_append]
    rfl
  simp only [proxyFrame, if_pos hlen, if_true, hbuf₁, hbuf₂, Option.bind_eq_bind,
    Option.bind_some, if_neg hnonempty, hpayload, htx₁, htx₂, htx₃, hsent, Option.pure_def]

/-! ### From the IMU to the sockets -/

/-- Where `ws_async_send_task` is. -/
inductive Point
  | absent
  /-- it has the address of `resp_arg` -/
  | created
  | copied
  /-- it has found no mutex -/
  | found
  | taking
  | waiting (m : ℕ)
  | streaming (m : ℕ)
  | leaving
  | ended
  deriving DecidableEq

/-- `request` is the socket of the request that started the task, `fd` what it has copied. -/
structure Task where
  point : Point
  request : Int
  fd : Int
  deriving DecidableEq

structure Server where
  mux : ImuMux
  /-- what stands at the address of `resp_arg` -/
  respArg : Int
  wsAsyncTaskMutex : Option ℕ
  /-- mutexes are numbered from 0 on -/
  mutexes : ℕ
  holder : ℕ → Option ℕ
  tasks : ℕ
  task : ℕ → Task
  /-- the task and the socket of each frame -/
  frames : List (ℕ × Int)

inductive Label
  | setMux (mux : ImuMux)
  /-- `imu_debug_socket_handler` on a `GET` -/
  | connect (fd : Int)
  /-- the server uses its stack for something else -/
  | reuse (value : Int)
  | copyArg (i : ℕ)
  | test (i : ℕ)
  | create (i : ℕ)
  /-- the task reads which mutex it has to take -/
  | reach (i : ℕ)
  | take (i : ℕ)
  | send (i : ℕ) (ok : Bool)
  | notDebug (i : ℕ)
  | give (i : ℕ)
  deriving DecidableEq

def Server.goto (s : Server) (i : ℕ) (point : Point) : Server :=
  { s with task := Function.update s.task i { s.task i with point } }

def step (s : Server) : Label → Option Server
  | .setMux mux => some { s with mux }
  | .connect fd =>
      if s.mux = .debug then
        some { s with
          respArg := fd
          tasks := s.tasks + 1
          task := Function.update s.task s.tasks ⟨.created, fd, 0⟩ }
      else none
  | .reuse value => some { s with respArg := value }
  | .copyArg i =>
      if (s.task i).point = .created then
        some { s with
          task := Function.update s.task i { s.task i with point := .copied, fd := s.respArg } }
      else none
  | .test i =>
      if (s.task i).point = .copied then
        some (s.goto i (if s.wsAsyncTaskMutex = none then .found else .taking))
      else none
  | .create i =>
      if (s.task i).point = .found then
        some { s.goto i .taking with
          wsAsyncTaskMutex := some s.mutexes, mutexes := s.mutexes + 1 }
      else none
  | .reach i =>
      if (s.task i).point = .taking then
        s.wsAsyncTaskMutex.map fun m => s.goto i (.waiting m)
      else none
  | .take i =>
      match (s.task i).point with
      | .waiting m =>
          if s.holder m = none then
            some { s.goto i (.streaming m) with holder := Function.update s.holder m (some i) }
          else none
      | _ => none
  | .send i ok =>
      match (s.task i).point with
      | .streaming _ =>
          if s.mux = .debug then
            if ok then some { s with frames := s.frames ++ [(i, (s.task i).fd)] }
            else some (s.goto i .leaving)
          else none
      | _ => none
  | .notDebug i =>
      match (s.task i).point with
      | .streaming _ => if s.mux = .debug then none else some (s.goto i .leaving)
      | _ => none
  | .give i =>
      if (s.task i).point = .leaving then
        s.wsAsyncTaskMutex.map fun m =>
          { s.goto i .ended with holder := Function.update s.holder m none }
      else none

/-- What each step finds, and what it leaves. -/
inductive Steps (s : Server) : Label → Server → Prop
  | setMux (mux : ImuMux) : Steps s (.setMux mux) { s with mux }
  | connect (fd : Int) : Steps s (.connect fd)
      { s with
        respArg := fd
        tasks := s.tasks + 1
        task := Function.update s.task s.tasks ⟨.created, fd, 0⟩ }
  | reuse (value : Int) : Steps s (.reuse value) { s with respArg := value }
  | copyArg (i : ℕ) (h : (s.task i).point = .created) : Steps s (.copyArg i)
      { s with
        task := Function.update s.task i { s.task i with point := .copied, fd := s.respArg } }
  | test (i : ℕ) (h : (s.task i).point = .copied) :
      Steps s (.test i) (s.goto i (if s.wsAsyncTaskMutex = none then .found else .taking))
  | create (i : ℕ) (h : (s.task i).point = .found) : Steps s (.create i)
      { s.goto i .taking with wsAsyncTaskMutex := some s.mutexes, mutexes := s.mutexes + 1 }
  | reach (i m : ℕ) (h : (s.task i).point = .taking) (hmutex : s.wsAsyncTaskMutex = some m) :
      Steps s (.reach i) (s.goto i (.waiting m))
  | take (i m : ℕ) (h : (s.task i).point = .waiting m) (hfree : s.holder m = none) :
      Steps s (.take i)
        { s.goto i (.streaming m) with holder := Function.update s.holder m (some i) }
  | send (i m : ℕ) (h : (s.task i).point = .streaming m) :
      Steps s (.send i true) { s with frames := s.frames ++ [(i, (s.task i).fd)] }
  | leave (i m : ℕ) (a : Label) (h : (s.task i).point = .streaming m)
      (ha : a = .send i false ∨ a = .notDebug i) : Steps s a (s.goto i .leaving)
  | give (i m : ℕ) (h : (s.task i).point = .leaving) (hmutex : s.wsAsyncTaskMutex = some m) :
      Steps s (.give i) { s.goto i .ended with holder := Function.update s.holder m none }

theorem steps_of_step {s t : Server} {a : Label} (hstep : step s a = some t) : Steps s a t := by
  cases a <;> simp only [step] at hstep
  case setMux mux =>
    cases hstep
    exact .setMux mux
  case connect fd =>
    obtain ⟨-, hnext⟩ := Option.ite_none_right_eq_some.mp hstep
    cases hnext
    exact .connect fd
  case reuse value =>
    cases hstep
    exact .reuse value
  case copyArg i =>
    obtain ⟨h, hnext⟩ := Option.ite_none_right_eq_some.mp hstep
    cases hnext
    exact .copyArg i h
  case test i =>
    obtain ⟨h, hnext⟩ := Option.ite_none_right_eq_some.mp hstep
    cases hnext
    exact .test i h
  case create i =>
    obtain ⟨h, hnext⟩ := Option.ite_none_right_eq_some.mp hstep
    cases hnext
    exact .create i h
  case reach i =>
    obtain ⟨h, hnext⟩ := Option.ite_none_right_eq_some.mp hstep
    obtain ⟨m, hmutex, rfl⟩ := Option.map_eq_some_iff.mp hnext
    exact .reach i m h hmutex
  case take i =>
    split at hstep
    · rename_i m h
      obtain ⟨hfree, hnext⟩ := Option.ite_none_right_eq_some.mp hstep
      cases hnext
      exact .take i m h hfree
    · cases hstep
  case send i ok =>
    split at hstep
    · rename_i m h
      obtain ⟨-, hnext⟩ := Option.ite_none_right_eq_some.mp hstep
      cases ok with
      | false =>
        cases hnext
        exact .leave i m _ h (Or.inl rfl)
      | true =>
        cases hnext
        exact .send i m h
    · cases hstep
  case notDebug i =>
    split at hstep
    · rename_i m h
      obtain ⟨-, hnext⟩ := Option.ite_none_left_eq_some.mp hstep
      cases hnext
      exact .leave i m _ h (Or.inr rfl)
    · cases hstep
  case give i =>
    obtain ⟨h, hnext⟩ := Option.ite_none_right_eq_some.mp hstep
    obtain ⟨m, hmutex, rfl⟩ := Option.map_eq_some_iff.mp hnext
    exact .give i m h hmutex

def boot : Server where
  mux := .idle
  respArg := 0
  wsAsyncTaskMutex := none
  mutexes := 0
  holder := fun _ => none
  tasks := 0
  task := fun _ => ⟨.absent, 0, 0⟩
  frames := []

def machine : Machine Server Label := ⟨fun s => s = boot, step⟩

def Streams (s : Server) (i : ℕ) : Prop := ∃ m, (s.task i).point = .streaming m

def Exclusive (s : Server) : Prop := ∀ i j, Streams s i → Streams s j → i = j

/-- No two tasks are behind a test that found no mutex. -/
def Apart (s : Server) : Label → Prop
  | .test _ => s.wsAsyncTaskMutex = none → ∀ j, (s.task j).point ≠ .found
  | _ => True

theorem Apart.found {s : Server} {i : ℕ} (h : Apart s (.test i)) :
    s.wsAsyncTaskMutex = none → ∀ j, (s.task j).point ≠ .found := h

/-- The stack keeps the structure until the new task has copied it. -/
def Kept (s : Server) : Label → Prop
  | .connect _ | .reuse _ => ∀ j, (s.task j).point ≠ .created
  | _ => True

/-- Before there is a mutex. -/
def Early : Point → Prop
  | .absent | .created | .copied | .found => True
  | _ => False

structure Unshared (s : Server) : Prop where
  mutex : s.wsAsyncTaskMutex = none
  early : ∀ i, Early (s.task i).point
  found : ∀ i j, (s.task i).point = .found → (s.task j).point = .found → i = j

/-- All tasks go by mutex `m`. -/
def Follows (m : ℕ) (holder : Option ℕ) (i : ℕ) : Point → Prop
  | .found => False
  | .waiting m' => m' = m
  | .streaming m' => m' = m ∧ holder = some i
  | .leaving => holder = some i
  | _ => True

structure Shared (s : Server) (m : ℕ) : Prop where
  mutex : s.wsAsyncTaskMutex = some m
  known : m < s.mutexes
  follows : ∀ i, Follows m (s.holder m) i (s.task i).point

/-- Mutexes that do not exist yet are free, and there is one at most. -/
structure Inv (s : Server) : Prop where
  fresh : ∀ m, s.mutexes ≤ m → s.holder m = none
  phase : Unshared s ∨ ∃ m, Shared s m

section Step

variable {s t : Server} {i : ℕ}

@[simp] theorem task_goto (s : Server) (i : ℕ) (point : Point) (j : ℕ) :
    ((s.goto i point).task j).point = if j = i then point else (s.task j).point := by
  simp only [Server.goto, Function.update_apply]
  split
  · rfl
  · rfl

theorem Unshared.goto (h : Unshared s) {point : Point} (hearly : Early point)
    (hfound : point = .found → ∀ j, (s.task j).point ≠ .found) : Unshared (s.goto i point) where
  mutex := h.mutex
  early j := by
    rw [task_goto]
    split
    · exact hearly
    · exact h.early j
  found j k hj hk := by
    rw [task_goto] at hj hk
    split at hj
    · split at hk
      · rename_i hji hki
        rw [hji, hki]
      · exact absurd hk (hfound hj k)
    · split at hk
      · exact absurd hj (hfound hk j)
      · exact h.found j k hj hk

theorem Shared.goto {m : ℕ} (h : Shared s m) {point : Point}
    (hpoint : Follows m (s.holder m) i point) : Shared (s.goto i point) m where
  mutex := h.mutex
  known := h.known
  follows j := by
    rw [task_goto]
    split
    · rename_i hj
      rw [hj]
      exact hpoint
    · exact h.follows j

/-- Nobody streams, waits for the end or has gone by another mutex while `m` is free. -/
theorem Shared.hold {m : ℕ} (h : Shared s m) (hfree : s.holder m = none) :
    Shared { s.goto i (.streaming m) with holder := Function.update s.holder m (some i) } m where
  mutex := h.mutex
  known := h.known
  follows j := by
    change Follows m (Function.update s.holder m (some i) m) j
      ((s.goto i (.streaming m)).task j).point
    rw [Function.update_self, task_goto]
    split
    · rename_i hj
      rw [hj]
      exact ⟨rfl, rfl⟩
    · have hfollows := h.follows j
      rw [hfree] at hfollows
      revert hfollows
      cases (s.task j).point <;> simp [Follows]

theorem Shared.free {m : ℕ} (h : Shared s m) (hleaving : (s.task i).point = .leaving) :
    Shared { s.goto i .ended with holder := Function.update s.holder m none } m where
  mutex := h.mutex
  known := h.known
  follows j := by
    have hholder : s.holder m = some i := by
      have hfollows := h.follows i
      rwa [hleaving] at hfollows
    change Follows m (Function.update s.holder m none m) j ((s.goto i .ended).task j).point
    rw [Function.update_self, task_goto]
    split
    · trivial
    · rename_i hj
      have hfollows := h.follows j
      rw [hholder] at hfollows
      revert hfollows
      cases (s.task j).point <;> simp [Follows, Ne.symm hj]

/-- Only these count. -/
theorem Inv.congr (h : Inv s) (hmutex : t.wsAsyncTaskMutex = s.wsAsyncTaskMutex)
    (hmutexes : t.mutexes = s.mutexes) (hholder : t.holder = s.holder)
    (hpoint : ∀ j, (t.task j).point = (s.task j).point) : Inv t where
  fresh := by
    rw [hmutexes, hholder]
    exact h.fresh
  phase := by
    rcases h.phase with hnone | ⟨m, hsome⟩
    · left
      constructor
      · exact hmutex.trans hnone.mutex
      · simpa only [hpoint] using hnone.early
      · simpa only [hpoint] using hnone.found
    · right
      refine ⟨m, hmutex.trans hsome.mutex, hmutexes ▸ hsome.known, ?_⟩
      simpa only [hpoint, hholder] using hsome.follows

/-- A place before the test can be gone to at any time. -/
theorem Inv.goto_early (h : Inv s) {point : Point} (hearly : point = .created ∨ point = .copied) :
    Inv (s.goto i point) where
  fresh := h.fresh
  phase := by
    rcases h.phase with hnone | ⟨m, hsome⟩
    · left
      refine hnone.goto ?_ ?_
      · rcases hearly with rfl | rfl <;> trivial
      · rcases hearly with rfl | rfl <;> nofun
    · right
      refine ⟨m, hsome.goto ?_⟩
      rcases hearly with rfl | rfl <;> trivial

/-- Past the test there is a mutex. -/
theorem Inv.shared (h : Inv s) (hlate : ¬ Early (s.task i).point) : ∃ m, Shared s m :=
  h.phase.resolve_left fun hnone => hlate (hnone.early i)

theorem Inv.test (h : Inv s)
    (hok : s.wsAsyncTaskMutex = none → ∀ j, (s.task j).point ≠ .found) :
    Inv (s.goto i (if s.wsAsyncTaskMutex = none then .found else .taking)) where
  fresh := h.fresh
  phase := by
    rcases h.phase with hnone | ⟨m, hsome⟩
    · rw [if_pos hnone.mutex]
      exact Or.inl (hnone.goto trivial fun _ => hok hnone.mutex)
    · rw [if_neg (by simp [hsome.mutex])]
      exact Or.inr ⟨m, hsome.goto trivial⟩

theorem Inv.create (h : Inv s) (hfound : (s.task i).point = .found) :
    Inv { s.goto i .taking with wsAsyncTaskMutex := some s.mutexes, mutexes := s.mutexes + 1 } where
  fresh m hm := h.fresh m (Nat.le_of_succ_le hm)
  phase := by
    rcases h.phase with hnone | ⟨m, hsome⟩
    · right
      refine ⟨s.mutexes, rfl, Nat.lt_succ_self _, fun j => ?_⟩
      simp only [task_goto]
      split
      · trivial
      · rename_i hj
        have hearly := hnone.early j
        have hother := fun hstate => hj (hnone.found j i hstate hfound)
        revert hearly hother
        cases (s.task j).point <;> simp [Early, Follows]
    · have hfollows := hsome.follows i
      rw [hfound] at hfollows
      exact hfollows.elim

theorem Inv.connect (h : Inv s) (fd : Int) :
    Inv { s with
      respArg := fd
      tasks := s.tasks + 1
      task := Function.update s.task s.tasks ⟨.created, fd, 0⟩ } := by
  refine (h.goto_early (i := s.tasks) (Or.inl rfl)).congr rfl rfl rfl fun j => ?_
  simp only [task_goto, Function.update_apply]
  split
  · rfl
  · rfl

theorem Inv.copyArg (h : Inv s) (i : ℕ) :
    Inv { s with
      task := Function.update s.task i { s.task i with point := .copied, fd := s.respArg } } := by
  refine (h.goto_early (i := i) (Or.inr rfl)).congr rfl rfl rfl fun j => ?_
  simp only [task_goto, Function.update_apply]
  split
  · rfl
  · rfl

theorem Inv.reach (h : Inv s) (htaking : (s.task i).point = .taking) {m : ℕ}
    (hmutex : s.wsAsyncTaskMutex = some m) : Inv (s.goto i (.waiting m)) := by
  obtain ⟨m', hsome⟩ := h.shared (i := i) (by rw [htaking]; exact id)
  obtain rfl : m = m' := Option.some.inj (hmutex.symm.trans hsome.mutex)
  exact ⟨h.fresh, Or.inr ⟨m, hsome.goto rfl⟩⟩

/-- Only the holder of a mutex that exists changes. -/
theorem Shared.fresh_update {m : ℕ} (hsome : Shared s m)
    (hfresh : ∀ k, s.mutexes ≤ k → s.holder k = none) (holder : Option ℕ) :
    ∀ k, s.mutexes ≤ k → Function.update s.holder m holder k = none := by
  intro k hk
  have hne : k ≠ m := (Nat.lt_of_lt_of_le hsome.known hk).ne'
  exact (Function.update_of_ne hne _ _).trans (hfresh k hk)

theorem Inv.take (h : Inv s) {m : ℕ} (hwaiting : (s.task i).point = .waiting m)
    (hfree : s.holder m = none) :
    Inv { s.goto i (.streaming m) with holder := Function.update s.holder m (some i) } := by
  obtain ⟨m', hsome⟩ := h.shared (i := i) (by rw [hwaiting]; exact id)
  obtain rfl : m = m' := by
    have hfollows := hsome.follows i
    rwa [hwaiting] at hfollows
  exact ⟨hsome.fresh_update h.fresh (some i), Or.inr ⟨m, hsome.hold hfree⟩⟩

theorem Inv.leave (h : Inv s) {m : ℕ} (hstreaming : (s.task i).point = .streaming m) :
    Inv (s.goto i .leaving) := by
  obtain ⟨m', hsome⟩ := h.shared (i := i) (by rw [hstreaming]; exact id)
  have hfollows := hsome.follows i
  rw [hstreaming] at hfollows
  exact ⟨h.fresh, Or.inr ⟨m', hsome.goto hfollows.2⟩⟩

theorem Inv.give (h : Inv s) (hleaving : (s.task i).point = .leaving) {m : ℕ}
    (hmutex : s.wsAsyncTaskMutex = some m) :
    Inv { s.goto i .ended with holder := Function.update s.holder m none } := by
  obtain ⟨m', hsome⟩ := h.shared (i := i) (by rw [hleaving]; exact id)
  obtain rfl : m = m' := Option.some.inj (hmutex.symm.trans hsome.mutex)
  exact ⟨hsome.fresh_update h.fresh none, Or.inr ⟨m, hsome.free hleaving⟩⟩

theorem inv_step {a : Label} (h : Inv s) (hok : Apart s a) (hstep : Steps s a t) : Inv t := by
  cases hstep with
  | setMux | reuse | send => exact h.congr rfl rfl rfl fun _ => rfl
  | connect fd => exact h.connect fd
  | copyArg i _ => exact h.copyArg i
  | test i _ => exact h.test hok
  | create i hfound => exact h.create hfound
  | reach i m htaking hmutex => exact h.reach htaking hmutex
  | take i m hwaiting hfree => exact h.take hwaiting hfree
  | leave i m _ hstreaming _ => exact h.leave hstreaming
  | give i m hleaving hmutex => exact h.give hleaving hmutex

theorem Inv.exclusive (h : Inv s) : Exclusive s := by
  intro i j ⟨m, hi⟩ ⟨m', hj⟩
  obtain ⟨k, hsome⟩ := h.shared (i := i) (by rw [hi]; exact id)
  have hfirst := hsome.follows i
  have hsecond := hsome.follows j
  rw [hi] at hfirst
  rw [hj] at hsecond
  exact Option.some.inj (hfirst.2.symm.trans hsecond.2)

theorem inv_boot : Inv boot where
  fresh _ _ := rfl
  phase := Or.inl ⟨rfl, fun _ => trivial, nofun⟩

theorem along_apart (s : Server) {run : List Label} (h : ∀ i, .test i ∉ run) :
    machine.Along Apart s run := by
  induction run generalizing s with
  | nil => trivial
  | cons a rest ih =>
    constructor
    · cases a with
      | test i => exact absurd List.mem_cons_self (h i)
      | _ => trivial
    · cases machine.step s a with
      | none => trivial
      | some t => exact ih t fun i hmem => h i (List.mem_cons_of_mem a hmem)

/-- A task that has found no mutex creates one, and has it for itself. -/
theorem enter (hfound : (s.task i).point = .found)
    (hfresh : ∀ m, s.mutexes ≤ m → s.holder m = none) :
    ∃ t, machine.exec s [.create i, .reach i, .take i] = some t ∧ Streams t i ∧
      (∀ j, j ≠ i → (t.task j).point = (s.task j).point) ∧
        ∀ m, t.mutexes ≤ m → t.holder m = none := by
  have hfree := hfresh s.mutexes (Nat.le_refl _)
  refine ⟨{ ((s.goto i .taking).goto i (.waiting s.mutexes)).goto i (.streaming s.mutexes) with
      wsAsyncTaskMutex := some s.mutexes
      mutexes := s.mutexes + 1
      holder := Function.update s.holder s.mutexes (some i) }, ?_, ?_, ?_, ?_⟩
  · simp [machine, Machine.exec, step, hfound, Server.goto, hfree]
  · exact ⟨s.mutexes, by simp [Server.goto]⟩
  · intro j hj
    simp [Server.goto, Function.update_of_ne hj]
  · intro m hm
    have hne : m ≠ s.mutexes := (Nat.lt_of_succ_le hm).ne'
    exact (Function.update_of_ne hne _ _).trans (hfresh m (Nat.le_of_succ_le hm))

/-- After apart steps, one more step is apart exactly if no way to go on from it by apart
steps has two tasks stream at once. -/
theorem exclusive_iff_apart {a : Label} (h : machine.Reach Apart s)
    (hstep : machine.step s a = some t) :
    Apart s a ↔
      ∀ run u, machine.Along Apart t run → machine.exec t run = some u → Exclusive u := by
  have hinv : ∀ {s}, machine.Reach Apart s → Inv s := fun h =>
    h.invariant (fun _ hboot => hboot ▸ inv_boot) fun _ _ _ hold hok hnext =>
      inv_step hold hok (steps_of_step hnext)
  constructor
  · intro hok run u halong hrun
    exact (hinv ((h.step hok hstep).exec halong hrun)).exclusive
  · intro hall
    by_contra hbad
    cases a <;> try exact hbad trivial
    case test i =>
    rw [Apart, Classical.not_imp] at hbad
    obtain ⟨hnone, hnot⟩ := hbad
    obtain ⟨j, hfound⟩ := not_forall.mp hnot
    have hj := not_not.mp hfound
    have hcases : Steps s (.test i) t := steps_of_step hstep
    cases hcases with
    | leave _ _ _ _ ha => simp at ha
    | test _ hcopied =>
      rw [if_pos hnone] at hall
      have hij : j ≠ i := by
        rintro rfl
        rw [hcopied] at hj
        cases hj
      -- both are behind the test: each creates a mutex and takes the one it has created
      have hfresh := (hinv h).fresh
      obtain ⟨t₁, hrun₁, hfirst, hother, hfresh₁⟩ := enter (s := s.goto i .found) (i := i)
        (by rw [task_goto, if_pos rfl]) hfresh
      have hj₁ : (t₁.task j).point = .found := by
        rw [hother j hij, task_goto, if_neg hij]
        exact hj
      obtain ⟨t₂, hrun₂, hsecond, hother₂, -⟩ := enter hj₁ hfresh₁
      have hstill : Streams t₂ i := by
        obtain ⟨m, hm⟩ := hfirst
        exact ⟨m, (hother₂ i (Ne.symm hij)).trans hm⟩
      have hboth := hall ([.create i, .reach i, .take i] ++ [.create j, .reach j, .take j]) t₂
        (along_apart _ (by simp)) (Machine.exec_append hrun₁ hrun₂)
      exact hij (hboth j i hsecond hstill)

/-- A task has the socket of its request, or finds it in the structure. -/
structure Args (s : Server) : Prop where
  absent : ∀ j, s.tasks ≤ j → (s.task j).point = .absent
  created : ∀ j, (s.task j).point = .created → s.respArg = (s.task j).request
  copied : ∀ j, (s.task j).point ≠ .absent → (s.task j).point ≠ .created →
    (s.task j).fd = (s.task j).request
  frames : ∀ frame ∈ s.frames, frame.1 < s.tasks ∧ frame.2 = (s.task frame.1).request

@[simp] theorem request_goto (s : Server) (i : ℕ) (point : Point) (j : ℕ) :
    ((s.goto i point).task j).request = (s.task j).request := by
  simp only [Server.goto, Function.update_apply]
  split
  · rename_i hj
    rw [hj]
  · rfl

@[simp] theorem fd_goto (s : Server) (i : ℕ) (point : Point) (j : ℕ) :
    ((s.goto i point).task j).fd = (s.task j).fd := by
  simp only [Server.goto, Function.update_apply]
  split
  · rename_i hj
    rw [hj]
  · rfl

/-- Past the copy a task goes on with what it has. -/
theorem Args.goto (h : Args s) (hpast : (s.task i).point ≠ .absent ∧ (s.task i).point ≠ .created)
    {point : Point} (hpoint : point ≠ .absent ∧ point ≠ .created) : Args (s.goto i point) where
  absent j hj := by
    have hne : j ≠ i := by
      rintro rfl
      exact hpast.1 (h.absent j hj)
    rw [task_goto, if_neg hne]
    exact h.absent j hj
  created j hj := by
    rw [task_goto] at hj
    rw [request_goto]
    split at hj
    · exact absurd hj hpoint.2
    · exact h.created j hj
  copied j habsent hcreated := by
    rw [task_goto] at habsent hcreated
    rw [request_goto, fd_goto]
    split at habsent
    · rename_i hj
      rw [hj]
      exact h.copied i hpast.1 hpast.2
    · rename_i hj
      rw [if_neg hj] at hcreated
      exact h.copied j habsent hcreated
  frames frame hframe := by
    rw [request_goto]
    exact h.frames frame hframe

theorem Args.connect (h : Args s) (hkept : ∀ j, (s.task j).point ≠ .created) (fd : Int) :
    Args { s with
      respArg := fd
      tasks := s.tasks + 1
      task := Function.update s.task s.tasks ⟨.created, fd, 0⟩ } where
  absent j hj := by
    dsimp only at hj ⊢
    have hne : j ≠ s.tasks := (Nat.lt_of_succ_le hj).ne'
    rw [Function.update_of_ne hne]
    exact h.absent j (Nat.le_of_succ_le hj)
  created j hj := by
    dsimp only at hj ⊢
    by_cases hnew : j = s.tasks
    · rw [hnew, Function.update_self]
    · rw [Function.update_of_ne hnew] at hj
      exact absurd hj (hkept j)
  copied j habsent hcreated := by
    dsimp only at habsent hcreated ⊢
    by_cases hnew : j = s.tasks
    · rw [hnew, Function.update_self] at hcreated
      exact absurd rfl hcreated
    · rw [Function.update_of_ne hnew] at habsent hcreated ⊢
      exact h.copied j habsent hcreated
  frames frame hframe := by
    obtain ⟨hlt, hfd⟩ := h.frames frame hframe
    dsimp only
    rw [Function.update_of_ne hlt.ne]
    exact ⟨Nat.lt_succ_of_lt hlt, hfd⟩

theorem Args.copyArg (h : Args s) (hcreated : (s.task i).point = .created) :
    Args { s with
      task := Function.update s.task i { s.task i with point := .copied, fd := s.respArg } } where
  absent j hj := by
    dsimp only at hj ⊢
    by_cases hji : j = i
    · rw [← hji, h.absent j hj] at hcreated
      cases hcreated
    · rw [Function.update_of_ne hji]
      exact h.absent j hj
  created j hj := by
    dsimp only at hj ⊢
    by_cases hji : j = i
    · rw [hji, Function.update_self] at hj
      cases hj
    · rw [Function.update_of_ne hji] at hj ⊢
      exact h.created j hj
  copied j habsent hold := by
    dsimp only at habsent hold ⊢
    by_cases hji : j = i
    · rw [hji, Function.update_self]
      exact h.created i hcreated
    · rw [Function.update_of_ne hji] at habsent hold ⊢
      exact h.copied j habsent hold
  frames frame hframe := by
    obtain ⟨hlt, hfd⟩ := h.frames frame hframe
    dsimp only
    refine ⟨hlt, hfd.trans ?_⟩
    rw [Function.update_apply]
    split
    · rename_i hji
      rw [hji]
    · rfl

theorem Args.send (h : Args s) {m : ℕ} (hstreaming : (s.task i).point = .streaming m) :
    Args { s with frames := s.frames ++ [(i, (s.task i).fd)] } := by
  have habsent : (s.task i).point ≠ .absent := by simp [hstreaming]
  refine { h with frames := fun frame hframe => ?_ }
  rcases List.mem_append.mp hframe with hold | hnew
  · exact h.frames frame hold
  · rw [List.mem_singleton.mp hnew]
    refine ⟨?_, h.copied i habsent (by simp [hstreaming])⟩
    by_contra hlate
    exact habsent (h.absent i (Nat.not_lt.mp hlate))

theorem args_step {a : Label} (h : Args s) (hok : Kept s a) (hstep : Steps s a t) : Args t := by
  cases hstep with
  | setMux mux => exact { h with }
  | reuse value => exact { h with created := fun j hj => absurd hj (hok j) }
  | connect fd => exact h.connect hok fd
  | copyArg i hcreated => exact h.copyArg hcreated
  | send i m hstreaming => exact h.send hstreaming
  | test i hcopied =>
    refine h.goto (by simp [hcopied]) ?_
    split
    · simp
    · simp
  | create i hfound => exact { h.goto (i := i) (by simp [hfound]) (by simp) with }
  | reach i m htaking _ => exact h.goto (by simp [htaking]) (by simp)
  | take i m hwaiting _ => exact { h.goto (i := i) (by simp [hwaiting]) (by simp) with }
  | leave i m _ hstreaming _ => exact h.goto (by simp [hstreaming]) (by simp)
  | give i m hleaving _ => exact { h.goto (i := i) (by simp [hleaving]) (by simp) with }

/-- Each frame goes to the socket whose request has started its task. -/
theorem frames_toRequest (h : machine.Reach Kept s) :
    ∀ frame ∈ s.frames, frame.2 = (s.task frame.1).request := by
  have hargs : Args s := by
    refine h.invariant ?_ fun _ _ _ hold hok hnext =>
      args_step hold hok (steps_of_step hnext)
    rintro s rfl
    exact ⟨fun _ _ => rfl, nofun, fun _ habsent => absurd rfl habsent, nofun⟩
  exact fun frame hframe => (hargs.frames frame hframe).2

end Step

/-- Two requests, and the first task has found no mutex. -/
def twoSockets : List Label :=
  [.setMux .debug, .connect 5, .copyArg 0, .connect 6, .copyArg 1, .test 0]

theorem exclusive_iff_apart_twoSockets :
    ∃ s t, machine.exec boot twoSockets = some s ∧ machine.step s (.test 1) = some t ∧
      ¬ ∀ run u, machine.Along Apart t run → machine.exec t run = some u → Exclusive u := by
  have hrun : ((machine.exec boot twoSockets).map fun s =>
      (s.wsAsyncTaskMutex, (s.task 0).point, (s.task 1).point)) = some (none, .found, .copied) := by
    decide
  obtain ⟨s, hs, hfields⟩ := Option.map_eq_some_iff.mp hrun
  simp only [Prod.mk.injEq] at hfields
  obtain ⟨hnone, hfound, hcopied⟩ := hfields
  have hstep : machine.step s (.test 1) =
      some (s.goto 1 (if s.wsAsyncTaskMutex = none then .found else .taking)) := if_pos hcopied
  have halong : machine.Along Apart boot twoSockets := by
    refine ⟨trivial, trivial, trivial, trivial, trivial, fun _ j => ?_, trivial⟩
    rcases j with _ | _ | j
    · nofun
    · nofun
    · nofun
  have hreach := Machine.reach_of_exec rfl halong hs
  refine ⟨s, _, hs, hstep, fun hall => ?_⟩
  exact Apart.found ((exclusive_iff_apart hreach hstep).mpr hall) hnone 0 hfound

end DebugSocket

end MarkitNode
