import EBank.Page

namespace EBank

variable {A : Type}

structure CurrencyDto where
  code : String
  deriving DecidableEq, Repr

structure AccountDto where
  id : Long
  name : Option String
  iban : Option String
  currency : Option CurrencyDto
  deriving DecidableEq, Repr

structure CustomerDto where
  id : Long
  givenName : Option String
  familyName : Option String
  identityKey : Option String
  accounts : List AccountDto
  deriving DecidableEq, Repr

structure CustomerListItemDto where
  id : Long
  givenName : Option String
  familyName : Option String
  deriving DecidableEq, Repr

structure AppStatusDto where
  appVersion : String
  deriving DecidableEq, Repr

structure TransactionValueDto (A : Type) where
  amount : Option A
  currency : Option CurrencyDto
  deriving DecidableEq, Repr

structure TransactionDto (A : Type) where
  id : Long
  value : TransactionValueDto A
  iban : Option String
  date : Option LocalDate
  description : Option String
  deriving DecidableEq, Repr

def TransactionDto.unconverted (dto : TransactionDto A) : TransactionDto A := { dto with value := ⟨none, none⟩ }

structure TransactionPageDto (A : Type) where
  page : PageDto
  content : List (TransactionDto A)
  deriving DecidableEq, Repr

namespace AccountMapper

def toDto (account : Account) : AccountDto :=
  ⟨account.id, account.name, account.iban, account.currency.map (fun c => ⟨c.code⟩)⟩

def toListDto (accounts : List Account) : List AccountDto := accounts.map toDto

end AccountMapper

namespace CustomerMapper

def toDto (customer : Customer) (accounts : List Account) : CustomerDto where
  id := customer.id
  givenName := customer.givenName
  familyName := customer.familyName
  identityKey := customer.identityKey
  accounts := AccountMapper.toListDto accounts

def toListItemDto (customer : Customer) : CustomerListItemDto :=
  ⟨customer.id, customer.givenName, customer.familyName⟩

def toListDto (customers : List Customer) : List CustomerListItemDto := customers.map toListItemDto

end CustomerMapper

namespace TransactionMapper

def toDto (transaction : Transaction A) : TransactionDto A where
  id := transaction.id
  value := ⟨transaction.amount, transaction.currency.map (fun c => ⟨c.code⟩)⟩
  iban := transaction.iban
  date := transaction.date
  description := transaction.description

def toListDto (transactions : List (Transaction A)) : List (TransactionDto A) := transactions.map toDto

def toTransactionPageDto (page : Page (Transaction A)) : TransactionPageDto A where
  content := toListDto page.content
  page := PageMapper.toDto page

end TransactionMapper

end EBank
