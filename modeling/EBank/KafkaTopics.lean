import EBank.Controllers
import EBank.Transition

/-!
Requests for transactions in Kafka mode as one system: every request appends its message to the
input topic and polls the output topic once, in any order, while a responder appends its answers.
A message names no request and a record no message: `sender` and `origin` are kept by the model only.
-/

namespace EBank

inductive OffsetReset where
  | earliest
  | latest
  deriving DecidableEq, Repr

structure ConsumerProperties where
  groupId : String
  enableAutoCommit : Bool
  autoOffsetReset : OffsetReset
  maxPollRecords : ℕ
  deriving DecidableEq, Repr

namespace AsyncTransactionService

def getAdditionalConsumerProperties (randomUUID : String) : ConsumerProperties where
  groupId := randomUUID
  enableAutoCommit := false
  autoOffsetReset := .earliest
  maxPollRecords := 2 ^ 31 - 1

end AsyncTransactionService

namespace KafkaTopics

open AsyncTransactionService

variable {ι A α : Type}

def position (props : ConsumerProperties) (committed : String → Option ℕ) (log : List α) : ℕ :=
  match committed props.groupId with
  | some offset => offset
  | none =>
    match props.autoOffsetReset with
    | .earliest => 0
    | .latest => log.length

def poll (props : ConsumerProperties) (committed : String → Option ℕ) (log : List α)
    (available : ℕ) : List α :=
  (log.drop (position props committed log)).take (min available props.maxPollRecords)

def commit (props : ConsumerProperties) (committed : String → Option ℕ) (log : List α) (available : ℕ) :
    String → Option ℕ :=
  if props.enableAutoCommit then
    Function.update committed props.groupId
      (some (position props committed log + (poll props committed log available).length))
  else committed

theorem poll_fresh {randomUUID : String} {committed : String → Option ℕ} (h : committed randomUUID = none)
    (log : List α) (available : ℕ) :
    poll (getAdditionalConsumerProperties randomUUID) committed log available =
      log.take (min available (2 ^ 31 - 1)) := by
  simp only [poll, position, getAdditionalConsumerProperties, h, List.drop_zero]

structure Request where
  customerId : Long
  accountId : Long
  date : LocalDate
  page : ℤ
  size : ℤ
  deriving DecidableEq

structure Message (ι : Type) where
  sender : Option ι
  request : TransactionRequest
  deriving DecidableEq

structure Record (A : Type) where
  value : ConsumedRecord A
  origin : Option ℕ
  deriving DecidableEq

def Record.transactions (r : Record A) : List (Transaction A) := r.value.getD []

structure State (ι A : Type) where
  input : List (Message ι)
  answered : List ℕ
  output : List (Record A)
  committed : String → Option ℕ
  returned : ι → Option (Page (Transaction A))

inductive Action (ι A : Type) where
  | send (i : ι)
  | answer (n : ℕ) (records : List (List (Transaction A)))
  | poll (i : ι) (randomUUID : String) (available : ℕ)

def send (i : ι) (request : Request) : Message ι :=
  ⟨some i, request.customerId, request.accountId, request.date⟩

def polled (s : State ι A) (randomUUID : String) (available : ℕ) : List (Record A) :=
  poll (getAdditionalConsumerProperties randomUUID) s.committed s.output available

def pageOf (request : Request) (records : List (Record A)) : Page (Transaction A) :=
  AccountController.getOrEmpty
    (findInMonthPaginated (.ok (records.map Record.value)) request.date request.page request.size)

inductive Step [DecidableEq ι] (store : Store A) (requests : ι → Request) :
    State ι A → Action ι A → State ι A → Prop
  | send {s : State ι A} {i : ι} (unsent : ∀ m ∈ s.input, m.sender ≠ some i) :
      Step store requests s (.send i) { s with input := s.input ++ [send i (requests i)] }
  | answer {s : State ι A} {n : ℕ} {m : Message ι} {records : List (List (Transaction A))}
      (message : s.input[n]? = some m) (unanswered : n ∉ s.answered)
      (exact : records.flatten.Perm
        (TransactionRepository.monthRows store m.request.accountId m.request.date)) :
      Step store requests s (.answer n records)
        { s with
          answered := n :: s.answered
          output := s.output ++ records.map (fun value => ⟨some value, some n⟩) }
  | poll {s : State ι A} {i : ι} {randomUUID : String} {available : ℕ} (waiting : s.returned i = none)
      (fresh : s.committed randomUUID = none) :
      Step store requests s (.poll i randomUUID available)
        { s with
          committed := commit (getAdditionalConsumerProperties randomUUID) s.committed s.output available
          returned :=
            Function.update s.returned i (some (pageOf (requests i) (polled s randomUUID available))) }

def initial (earlier : List TransactionRequest) (content : List (ConsumedRecord A))
    (committed : String → Option ℕ) : State ι A where
  input := earlier.map (fun request => ⟨none, request⟩)
  answered := []
  output := content.map (fun value => ⟨value, none⟩)
  committed := committed
  returned := fun _ => none

theorem resultPage_eq_pageOf {σ : Type} [Mul A] (sources : AccountController.Sources σ A) (request : Request)
    (records : List (Record A)) (hmode : sources.readMockedTransactions = true)
    (hpolled : sources.polled = .ok (records.map Record.value)) (accountId : Long) :
    AccountController.resultPage sources accountId request.date request.page request.size =
      .ok (pageOf request records) := by
  rw [AccountController.resultPage, if_pos hmode, hpolled, pageOf]

end KafkaTopics

end EBank
