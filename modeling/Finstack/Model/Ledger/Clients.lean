import Finstack.Model.Ledger.Service

/-! # Callers of the ledger

Any code that uses the ledger: single operations, and database transactions of its own in which it
opens accounts, posts and reads what it likes, going on or giving up as it sees fit.
-/

namespace Finstack

open Foundation

/-- What a caller does inside a database transaction of its own. It sees every result, errors
included, and decides what to do next. -/
inductive Caller where
  | done (result : Except Err Unit)
  | read (next : Db → Caller)
  | createAccount (id : Uuid) (input : CreateLedgerAccountInput)
      (next : Except Err LedgerAccount → Caller)
  | ensureSystemAccount (id : Uuid) (definition : SystemAccounts.Definition)
      (next : Except Err LedgerAccount → Caller)
  | postWithin (id : Uuid) (input : PostingInput) (next : Except Err PostedTransaction → Caller)

namespace Caller

def body : Caller → DbTxn Unit
  | .done result => Prog.ret result
  | .read next => Txn.query id >>= fun db => (next db).body
  | .createAccount id input next =>
      Prog.bind (LedgerService.createAccount id input) fun result => (next result).body
  | .ensureSystemAccount id definition next =>
      Prog.bind (LedgerService.ensureSystemAccount id definition) fun result => (next result).body
  | .postWithin id input next =>
      Prog.bind (LedgerService.postWithin id input) fun result => (next result).body

end Caller

/-- One use of the ledger service. New rows get the ids given here. -/
inductive LedgerCall where
  | createAccount (id : Uuid) (input : CreateLedgerAccountInput)
  | ensureSystemAccount (id : Uuid) (definition : SystemAccounts.Definition)
  | post (id : Uuid) (input : PostingInput) (beforePost : Caller)
  | reverse (id transactionId : Uuid) (reference description : String)
  | within (caller : Caller)

namespace LedgerCall

def run : LedgerCall → DbTxn Unit
  | .createAccount id input => do
    let _ ← inTransaction (LedgerService.createAccount id input)
    pure ()
  | .ensureSystemAccount id definition => do
    let _ ← LedgerService.ensureSystemAccount id definition
    pure ()
  | .post id input beforePost => do
    let _ ← LedgerService.post id input beforePost.body
    pure ()
  | .reverse id transactionId reference description => do
    let _ ← LedgerService.reverse id transactionId reference description
    pure ()
  | .within caller => inTransaction caller.body

end LedgerCall

/-- What the service's own callers do in `beforePost`: lock rows and check what they read. -/
inductive Preparation where
  | done (result : Except Err Unit)
  | look (locks : List RowLock) (next : Db → Preparation)

namespace Preparation

def body : Preparation → DbTxn Unit
  | .done result => Prog.ret result
  | .look locks next => Txn.select locks id >>= fun db => (next db).body

end Preparation

/-- A call whose answer is a posted transaction. -/
inductive PostCall where
  | post (id : Uuid) (input : PostingInput) (beforePost : Preparation)
  | reverse (id transactionId : Uuid) (reference description : String)

namespace PostCall

def run : PostCall → DbTxn PostedTransaction
  | .post id input beforePost => LedgerService.post id input beforePost.body
  | .reverse id transactionId reference description =>
      LedgerService.reverse id transactionId reference description

end PostCall

/-- One call after another, whatever becomes of each. -/
def ledgerClient : List LedgerCall → Prog Db RowLock Unit
  | [] => .ret ()
  | call :: rest => Prog.bind call.run fun _ => ledgerClient rest

/-- A client that ends with a call of its own. -/
def postingClient (calls : List LedgerCall) (last : PostCall) : DbTxn PostedTransaction :=
  Prog.bind (ledgerClient calls) fun _ => last.run

end Finstack
