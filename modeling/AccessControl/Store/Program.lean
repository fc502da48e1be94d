import AccessControl.Failure
import AccessControl.Log
import AccessControl.Store

/-!
# Programs over a store

A program asks the store one command after the other, notes what it does in the
log, and ends with an answer or a failure.  A command is one indivisible step
on the store, so that several programs can take turns between their commands.
`Program.run` is the one interpreter; `documents_execute_of_ne` says that a
command leaves every other collection as it is.
-/

namespace AccessControl

/-- What is done to a collection in one step. -/
inductive Deed where
  | findOne (filter : Filter)
  | find (filter : Filter)
  | findSorted (field : String)
  | insert (document : Fields)
  | findOneAndSet (filter : Filter) (changes : Fields)
  | deleteOne (filter : Filter)
  | updateOne (filter : Filter) (edit : ArrayEdit)
  | updateMany (filter : Filter) (edit : ArrayEdit)

namespace Deed

/-- What the store answers: documents that were found, or whether there was any
document to change. -/
def Reply : Deed → Type
  | findOne _ => Option Fields
  | find _ => List Fields
  | findSorted _ => Except Unordered (List Fields)
  | insert _ => Unit
  | findOneAndSet _ _ => Option Fields
  | deleteOne _ => Bool
  | updateOne _ _ => Bool
  | updateMany _ _ => Unit

def change (deed : Deed) (documents : List Fields) : List Fields :=
  match deed with
  | findOne _ => documents
  | find _ => documents
  | findSorted _ => documents
  | insert document => documents ++ [document]
  | findOneAndSet filter changes =>
      Store.replaceFirst filter.admits (Fields.merge · changes) documents
  | deleteOne filter => Store.dropFirst filter.admits documents
  | updateOne filter edit =>
      Store.replaceFirst filter.admits edit.apply documents
  | updateMany filter edit =>
      documents.map fun document =>
        if filter.admits document then edit.apply document else document

/-- The answer to the deed; a changed document is answered as it is after the
change. -/
def reply (deed : Deed) (documents : List Fields) : deed.Reply :=
  match deed with
  | findOne filter => documents.find? filter.admits
  | find filter => documents.filter filter.admits
  | findSorted field => sortedBy field documents
  | insert _ => ()
  | findOneAndSet filter changes =>
      (documents.find? filter.admits).map (Fields.merge · changes)
  | deleteOne filter => documents.any filter.admits
  | updateOne filter _ => documents.any filter.admits
  | updateMany _ _ => ()

def inserts : Deed → Bool
  | insert _ => true
  | _ => false

end Deed

/-- A deed and the collection it is done to. -/
structure Command where
  collection : String
  deed : Deed

namespace Store

def execute (store : Store) (command : Command) : Store :=
  store.write command.collection
    (command.deed.change (store.documents command.collection))

def answer (store : Store) (command : Command) : command.deed.Reply :=
  command.deed.reply (store.documents command.collection)

theorem documents_execute_self (store : Store) (command : Command) :
    (store.execute command).documents command.collection =
      command.deed.change (store.documents command.collection) :=
  documents_write_self store _ _

theorem documents_execute_of_ne (store : Store) (command : Command)
    {name : String} (different : name ≠ command.collection) :
    (store.execute command).documents name = store.documents name :=
  documents_write_of_ne store different _

end Store

/-- Commands and notes in order, and an answer or a failure at the end. -/
inductive Program (α : Type) where
  | done (result : Except Failure α)
  | note (record : LogRecord) (next : Program α)
  | ask (command : Command) (next : command.deed.Reply → Program α)

namespace Program

def bind {α β : Type} (program : Program α) (rest : α → Program β) :
    Program β :=
  match program with
  | done (.ok value) => rest value
  | done (.error failure) => done (.error failure)
  | note record next => note record (next.bind rest)
  | ask command next => ask command fun reply => (next reply).bind rest

instance : Monad Program where
  pure value := done (.ok value)
  bind := bind

def fail {α : Type} (failure : Failure) : Program α :=
  done (.error failure)

def refuse {α : Type} (refusal : Refusal) : Program α :=
  fail (.refused refusal)

def log (record : LogRecord) : Program Unit :=
  note record (pure ())

def logAll (records : List LogRecord) : Program Unit :=
  records.foldr note (pure ())

def query (collection : String) (deed : Deed) : Program deed.Reply :=
  ask ⟨collection, deed⟩ pure

/-- Continues with a result that is already known. -/
def ofExcept {α : Type} (result : Except Failure α) : Program α :=
  done result

structure Outcome (α : Type) where
  result : Except Failure α
  store : Store
  records : List LogRecord
  insertions : Nat

/-- Runs a program. Before each command somebody else may change the store. -/
def run {α : Type} (interfere : Command → Store → Store) :
    Program α → Store → Outcome α
  | done result, store => ⟨result, store, [], 0⟩
  | note record next, store =>
      let outcome := run interfere next store
      { outcome with records := record :: outcome.records }
  | ask command next, store =>
      let found := interfere command store
      let outcome :=
        run interfere (next (found.answer command)) (found.execute command)
      { outcome with
        insertions := outcome.insertions + (if command.deed.inserts then 1 else 0) }

/-- Nobody else changes the store. -/
def undisturbed (_ : Command) (store : Store) : Store := store

/-- Somebody removes a document just before it is found and changed. -/
def vanishing (command : Command) (store : Store) : Store :=
  match command.deed with
  | .findOneAndSet filter _ =>
      store.write command.collection
        (Store.dropFirst filter.admits (store.documents command.collection))
  | _ => store

end Program

end AccessControl
