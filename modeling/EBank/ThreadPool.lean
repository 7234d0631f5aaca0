import Mathlib.Data.List.Perm.Basic
import Mathlib.Data.List.Infix

/-!
A thread pool with a bounded queue. A submitted job gets a thread of its own while the pool is
below its core size, waits in the queue while there is room, gets a thread beyond the core size
otherwise, and is rejected when there is none. `accepted` and `finished` are history only.
-/

namespace EBank.ThreadPool

structure Config where
  corePoolSize : ℕ
  maxPoolSize : ℕ
  queueCapacity : ℕ
  core_pos : 0 < corePoolSize
  core_le_max : corePoolSize ≤ maxPoolSize
  capacity_pos : 0 < queueCapacity

structure Pool (config : Config) (J : Type) where
  threads : ℕ
  active : List J
  queue : List J
  accepted : List J
  finished : List J
  threads_le : threads ≤ config.maxPoolSize
  active_le : active.length ≤ threads
  queue_le : queue.length ≤ config.queueCapacity
  core_le : queue ≠ [] → config.corePoolSize ≤ threads
  jobs_perm : accepted.Perm (finished ++ (active ++ queue))
  queue_suffix : config.corePoolSize = config.maxPoolSize → queue <:+ accepted

namespace Pool

variable {config : Config} {J : Type}

def empty : Pool config J where
  threads := 0
  active := []
  queue := []
  accepted := []
  finished := []
  threads_le := Nat.zero_le _
  active_le := le_rfl
  queue_le := Nat.zero_le _
  core_le h := absurd rfl h
  jobs_perm := .refl _
  queue_suffix _ := List.suffix_rfl

def jobs (pool : Pool config J) : List J := pool.active ++ pool.queue

def spawn (pool : Pool config J) (j : J) (room : pool.threads < config.maxPoolSize)
    (empty : config.corePoolSize = config.maxPoolSize → pool.queue = []) : Pool config J where
  threads := pool.threads + 1
  active := pool.active ++ [j]
  queue := pool.queue
  accepted := pool.accepted ++ [j]
  finished := pool.finished
  threads_le := room
  active_le := by
    have h := pool.active_le
    simp only [List.length_append, List.length_singleton]
    omega
  queue_le := pool.queue_le
  core_le h := (pool.core_le h).trans (Nat.le_succ _)
  jobs_perm := by
    have h := pool.jobs_perm.append_right [j]
    apply h.trans
    simp only [List.append_assoc]
    exact (List.perm_append_comm.append_left _).append_left _
  queue_suffix h := by
    rw [empty h]
    exact List.nil_suffix

def enqueue (pool : Pool config J) (j : J) (busy : config.corePoolSize ≤ pool.threads)
    (room : pool.queue.length < config.queueCapacity) : Pool config J where
  threads := pool.threads
  active := pool.active
  queue := pool.queue ++ [j]
  accepted := pool.accepted ++ [j]
  finished := pool.finished
  threads_le := pool.threads_le
  active_le := pool.active_le
  queue_le := by
    simp only [List.length_append, List.length_singleton]
    omega
  core_le _ := busy
  jobs_perm := by
    have h := pool.jobs_perm.append_right [j]
    simpa only [List.append_assoc] using h
  queue_suffix h := by
    obtain ⟨started, hstarted⟩ := pool.queue_suffix h
    exact ⟨started, by rw [← hstarted, List.append_assoc]⟩

theorem queue_eq_nil (pool : Pool config J) (h : pool.threads < config.corePoolSize) :
    pool.queue = [] := by
  by_contra hne
  exact absurd (pool.core_le hne) (by omega)

def execute (pool : Pool config J) (j : J) : Option (Pool config J) :=
  if core : pool.threads < config.corePoolSize then
    some (pool.spawn j (core.trans_le config.core_le_max) fun _ => pool.queue_eq_nil core)
  else if room : pool.queue.length < config.queueCapacity then
    some (pool.enqueue j (not_lt.mp core) room)
  else if room : pool.threads < config.maxPoolSize then
    some (pool.spawn j room fun h => absurd (h ▸ room) core)
  else none

def take (pool : Pool config J) {j : J} {rest : List J} (idle : pool.active.length < pool.threads)
    (waiting : pool.queue = j :: rest) : Pool config J where
  threads := pool.threads
  active := pool.active ++ [j]
  queue := rest
  accepted := pool.accepted
  finished := pool.finished
  threads_le := pool.threads_le
  active_le := by
    rw [List.length_append, List.length_singleton]
    exact idle
  queue_le := by
    have h := pool.queue_le
    rw [waiting, List.length_cons] at h
    omega
  core_le _ := pool.core_le (by rw [waiting]; exact List.cons_ne_nil _ _)
  jobs_perm := by simpa [waiting] using pool.jobs_perm
  queue_suffix h := by
    have hsuffix := pool.queue_suffix h
    rw [waiting] at hsuffix
    exact (List.suffix_cons j rest).trans hsuffix

def finish [DecidableEq J] (pool : Pool config J) (j : J) (busy : j ∈ pool.active) : Pool config J where
  threads := pool.threads
  active := pool.active.erase j
  queue := pool.queue
  accepted := pool.accepted
  finished := pool.finished ++ [j]
  threads_le := pool.threads_le
  active_le := (List.length_erase_le ..).trans pool.active_le
  queue_le := pool.queue_le
  core_le := pool.core_le
  jobs_perm := by
    have h := (List.perm_cons_erase busy).append_right pool.queue
    rw [List.append_assoc]
    exact pool.jobs_perm.trans (h.append_left _)
  queue_suffix := pool.queue_suffix

theorem execute_cases {pool pool' : Pool config J} {j : J} (h : pool.execute j = some pool') :
    pool'.accepted = pool.accepted ++ [j] ∧ pool'.finished = pool.finished ∧
      (pool'.active = pool.active ++ [j] ∧ pool'.queue = pool.queue ∨
        pool'.active = pool.active ∧ pool'.queue = pool.queue ++ [j]) := by
  unfold execute at h
  split_ifs at h with core room room
  · rw [Option.some_inj] at h
    subst h
    exact ⟨rfl, rfl, .inl ⟨rfl, rfl⟩⟩
  · rw [Option.some_inj] at h
    subst h
    exact ⟨rfl, rfl, .inr ⟨rfl, rfl⟩⟩
  · rw [Option.some_inj] at h
    subst h
    exact ⟨rfl, rfl, .inl ⟨rfl, rfl⟩⟩

theorem execute_eq_none_iff (pool : Pool config J) (j : J) :
    pool.execute j = none ↔
      pool.threads = config.maxPoolSize ∧ pool.queue.length = config.queueCapacity := by
  have hmax := pool.threads_le
  have hqueue := pool.queue_le
  have hcore := config.core_le_max
  unfold execute
  split_ifs <;> simp only [false_iff, true_iff] <;> omega

theorem execute_of_core (pool : Pool config J) (j : J) (core : config.corePoolSize ≤ pool.threads)
    (room : pool.queue.length < config.queueCapacity) :
    pool.execute j = some (pool.enqueue j core room) := by
  rw [execute, dif_neg (not_lt.mpr core), dif_pos room]

theorem execute_at_rest {pool : Pool config J} (j : J) (hqueue : pool.queue = []) :
    ∃ pool', pool.execute j = some pool' ∧
      (pool.threads < config.corePoolSize ∧ pool'.threads = pool.threads + 1 ∧
          pool'.active = pool.active ++ [j] ∧ pool'.queue = [] ∨
        config.corePoolSize ≤ pool.threads ∧ pool'.threads = pool.threads ∧
          pool'.active = pool.active ∧ pool'.queue = [j]) := by
  by_cases core : pool.threads < config.corePoolSize
  · rw [execute, dif_pos core]
    exact ⟨_, rfl, .inl ⟨core, rfl, rfl, hqueue⟩⟩
  · have room : pool.queue.length < config.queueCapacity := by
      rw [hqueue]
      exact config.capacity_pos
    rw [execute_of_core pool j (not_lt.mp core) room]
    exact ⟨_, rfl, .inr ⟨not_lt.mp core, rfl, rfl, by simp [enqueue, hqueue]⟩⟩

theorem active_or_idle (pool : Pool config J) (h : pool.queue ≠ []) :
    pool.active ≠ [] ∨ pool.active.length < pool.threads := by
  have hthreads := config.core_pos.trans_le (pool.core_le h)
  by_cases hactive : pool.active = []
  · right
    rwa [hactive]
  · exact .inl hactive

theorem queue_of_filter {pool : Pool config J} {P : J → Bool} {a b : J} (hab : a ≠ b)
    (hfixed : config.corePoolSize = config.maxPoolSize) (h : pool.accepted.filter P = [a, b])
    (ha : a ∈ pool.queue) (hP : P a) : b ∈ pool.queue := by
  have hsuffix := (pool.queue_suffix hfixed).filter P
  rw [h] at hsuffix
  have hmem : a ∈ pool.queue.filter P := List.mem_filter.mpr ⟨ha, hP⟩
  have hall : pool.queue.filter P = [a, b] := by
    rcases List.suffix_cons_iff.mp hsuffix with hall | hrest
    · exact hall
    · exact absurd (List.mem_singleton.mp (hrest.subset hmem)) hab
  have hb : b ∈ pool.queue.filter P := by rw [hall]; simp
  exact (List.mem_filter.mp hb).1

end Pool

end EBank.ThreadPool
