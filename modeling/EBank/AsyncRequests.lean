import EBank.ThreadPool
import EBank.Isolation

/-!
The server in Kafka mode. A request submits the job that sends its message and the job that polls,
waits for the page of the second one only, and fails where the pool rejects one of them. A message
that was sent is delivered later, or lost: its callbacks only log.
-/

namespace EBank

open ThreadPool

namespace EBankApplication

theorem asyncExecutor_core_pos : 0 < 3 := by omega

theorem asyncExecutor_capacity_pos : 0 < 100 := by omega

def asyncExecutor : Config where
  corePoolSize := 3
  maxPoolSize := 3
  queueCapacity := 100
  core_pos := asyncExecutor_core_pos
  core_le_max := le_rfl
  capacity_pos := asyncExecutor_capacity_pos

end EBankApplication

namespace AsyncRequests

open AsyncTransactionService EBankApplication KafkaTopics Transition

variable {ι A : Type}

inductive Job (ι : Type) where
  | send (i : ι)
  | find (i : ι)
  deriving DecidableEq

def Job.request : Job ι → ι
  | .send i => i
  | .find i => i

inductive Phase (A : Type) where
  | idle
  | sending
  | waiting
  | responded (page : Page (Transaction A))
  | failed

structure State (ι A : Type) where
  topics : KafkaTopics.State ι A
  pool : Pool asyncExecutor (Job ι)
  buffered : List ι
  phase : ι → Phase A

inductive Action (ι A : Type) where
  | callSend (i : ι)
  | callFind (i : ι)
  | take
  | sendMessage (i : ι)
  | deliver (i : ι)
  | lose (i : ι)
  | answer (n : ℕ) (records : List (List (Transaction A)))
  | poll (i : ι) (randomUUID : String) (available : ℕ)
  | respond (i : ι)

def initial (topics : KafkaTopics.State ι A) : State ι A where
  topics := topics
  pool := .empty
  buffered := []
  phase := fun _ => .idle

variable [DecidableEq ι]

inductive Step (store : Store A) (requests : ι → Request) : State ι A → Action ι A → State ι A → Prop
  | callSend {s : State ι A} {i : ι} {pool : Pool asyncExecutor (Job ι)} (idle : s.phase i = .idle)
      (accepted : s.pool.execute (.send i) = some pool) :
      Step store requests s (.callSend i)
        { s with pool := pool, phase := Function.update s.phase i .sending }
  | callSendRejected {s : State ι A} {i : ι} (idle : s.phase i = .idle)
      (rejected : s.pool.execute (.send i) = none) :
      Step store requests s (.callSend i) { s with phase := Function.update s.phase i .failed }
  | callFind {s : State ι A} {i : ι} {pool : Pool asyncExecutor (Job ι)} (sending : s.phase i = .sending)
      (accepted : s.pool.execute (.find i) = some pool) :
      Step store requests s (.callFind i)
        { s with pool := pool, phase := Function.update s.phase i .waiting }
  | callFindRejected {s : State ι A} {i : ι} (sending : s.phase i = .sending)
      (rejected : s.pool.execute (.find i) = none) :
      Step store requests s (.callFind i) { s with phase := Function.update s.phase i .failed }
  | take {s : State ι A} {j : Job ι} {rest : List (Job ι)} (idle : s.pool.active.length < s.pool.threads)
      (waiting : s.pool.queue = j :: rest) :
      Step store requests s .take { s with pool := s.pool.take idle waiting }
  | sendMessage {s : State ι A} {i : ι} (busy : .send i ∈ s.pool.active) :
      Step store requests s (.sendMessage i)
        { s with pool := s.pool.finish (.send i) busy, buffered := s.buffered ++ [i] }
  | deliver {s : State ι A} {i : ι} (sent : i ∈ s.buffered) :
      Step store requests s (.deliver i)
        { s with
          buffered := s.buffered.erase i
          topics := { s.topics with input := s.topics.input ++ [send i (requests i)] } }
  | lose {s : State ι A} {i : ι} (sent : i ∈ s.buffered) :
      Step store requests s (.lose i) { s with buffered := s.buffered.erase i }
  | answer {s : State ι A} {n : ℕ} {records : List (List (Transaction A))}
      {topics : KafkaTopics.State ι A}
      (answered : KafkaTopics.Step store requests s.topics (.answer n records) topics) :
      Step store requests s (.answer n records) { s with topics := topics }
  | poll {s : State ι A} {i : ι} {randomUUID : String} {available : ℕ} (busy : .find i ∈ s.pool.active)
      (fresh : s.topics.committed randomUUID = none) :
      Step store requests s (.poll i randomUUID available)
        { s with
          pool := s.pool.finish (.find i) busy
          topics :=
            { s.topics with
              committed :=
                commit (getAdditionalConsumerProperties randomUUID) s.topics.committed s.topics.output available
              returned :=
                Function.update s.topics.returned i
                  (some (pageOf (requests i) (polled s.topics randomUUID available))) } }
  | respond {s : State ι A} {i : ι} {page : Page (Transaction A)} (waiting : s.phase i = .waiting)
      (returned : s.topics.returned i = some page) :
      Step store requests s (.respond i) { s with phase := Function.update s.phase i (.responded page) }

end AsyncRequests

end EBank
