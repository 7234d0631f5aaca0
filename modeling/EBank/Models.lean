import EBank.LocalDate

namespace EBank

abbrev Long := ℤ

inductive Currency where
  | AED | AUD | BRL | CAD | CHF | CLP | CNY | COP | CZK
  | DKK | EUR | GBP | HKD | HUF | IDR | ILS | INR | JPY
  | KRW | MXN | MYR | NOK | NZD | PHP | PLN | RON | RUB
  | SAR | SEK | SGD | THB | TRY | TWD | ZAR
  deriving DecidableEq, Repr

namespace Currency

def code : Currency → String
  | AED => "AED" | AUD => "AUD" | BRL => "BRL" | CAD => "CAD" | CHF => "CHF" | CLP => "CLP" | CNY => "CNY"
  | COP => "COP" | CZK => "CZK" | DKK => "DKK" | EUR => "EUR" | GBP => "GBP" | HKD => "HKD" | HUF => "HUF"
  | IDR => "IDR" | ILS => "ILS" | INR => "INR" | JPY => "JPY" | KRW => "KRW" | MXN => "MXN" | MYR => "MYR"
  | NOK => "NOK" | NZD => "NZD" | PHP => "PHP" | PLN => "PLN" | RON => "RON" | RUB => "RUB" | SAR => "SAR"
  | SEK => "SEK" | SGD => "SGD" | THB => "THB" | TRY => "TRY" | TWD => "TWD" | ZAR => "ZAR"

-- every constant of the enum is written with its own name as its code
def toString (c : Currency) : String := c.code

def values : List Currency :=
  [AED, AUD, BRL, CAD, CHF, CLP, CNY, COP, CZK, DKK, EUR, GBP, HKD, HUF, IDR, ILS, INR, JPY,
    KRW, MXN, MYR, NOK, NZD, PHP, PLN, RON, RUB, SAR, SEK, SGD, THB, TRY, TWD, ZAR]

def decode (code : String) : Option Currency := values.find? (fun c => c.code = code)

theorem decode_code (c : Currency) : decode c.code = some c := by
  cases c <;> decide

theorem code_injective : Function.Injective code := by
  intro c d h
  apply Option.some_injective
  rw [← decode_code c, ← decode_code d, h]

end Currency

inductive JavaException where
  | nullPointer
  | illegalArgument
  | indexOutOfBounds
  | dateTimeParse
  | entityNotFound
  | accessDenied (message : String)
  | incorrectResultSize
  | requiredType
  | jwt
  | insufficientAuthentication
  | remoteCall
  deriving DecidableEq, Repr

theorem ok_bind {ε α β : Type} (a : α) (f : α → Except ε β) : (Except.ok a >>= f) = f a := rfl

theorem bind_return {ε α β : Type} (x : Except ε α) (f : α → β) : (x >>= fun a => pure (f a)) = x.map f := by
  cases x <;> rfl

theorem bind_eq_ok {ε α β : Type} {x : Except ε α} {f : α → Except ε β} {b : β} (h : (x >>= f) = .ok b) :
    ∃ a, x = .ok a ∧ f a = .ok b := by
  cases x with
  | error e => cases h
  | ok a => exact ⟨a, rfl, h⟩

structure Customer where
  id : Long
  familyName : Option String
  givenName : Option String
  identityKey : Option String
  deriving DecidableEq, Repr

structure Account where
  id : Long
  customer : Option Long
  iban : Option String
  name : Option String
  currency : Option Currency
  deriving DecidableEq, Repr

structure Transaction (A : Type) where
  id : Long
  account : Option Long
  iban : Option String
  date : Option LocalDate
  amount : Option A
  currency : Option Currency
  description : Option String
  deriving DecidableEq, Repr

namespace Transaction

variable {A : Type}

def row (id account : Long) (date : LocalDate) (amount : A) (currency : Currency) : Transaction A :=
  ⟨id, some account, none, some date, some amount, some currency, none⟩

def day (t : Transaction A) : WithBot LocalDate := t.date

-- what a conversion never changes
def unconverted (t : Transaction A) : Transaction A := { t with amount := none, currency := none }

def InMonth (t : Transaction A) (d : LocalDate) : Prop := ∃ e ∈ t.date, e.SameMonth d

instance (t : Transaction A) (d : LocalDate) : Decidable (t.InMonth d) :=
  inferInstanceAs (Decidable (∃ e ∈ t.date, e.SameMonth d))

end Transaction

structure TransactionRequest where
  customerId : Long
  accountId : Long
  date : LocalDate
  deriving DecidableEq, Repr

structure InlineResponse200 (A : Type) where
  value : Option A
  deriving DecidableEq, Repr

end EBank
