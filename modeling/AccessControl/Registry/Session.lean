import AccessControl.Registry.Records

/-!
# Sessions

A session keeps the store, the clock and the number of identifiers given out.
It hands each operation its stamp and runs it.
-/

namespace AccessControl

namespace ObjectId

/-- The `width` lowest bytes of a number, the highest first. -/
def lowBytes (width n : Nat) : List UInt8 :=
  (List.range width).reverse.map fun place => UInt8.ofNat (n / Nat.pow 256 place)

/-- The identifier given to the document that is inserted as the `n`-th one. -/
def ofCount (n : Nat) : ObjectId :=
  ⟨0xa0 :: lowBytes 11 n, by simp [lowBytes]⟩

end ObjectId

/-- The store, the seconds on the clock since the start of 1970, and how many
identifiers were given out. -/
structure Session where
  store : Store
  clock : Number
  issued : Nat

namespace Session

def now (session : Session) : Except Clock.Fault Timestamp :=
  Clock.date session.clock

def stamp (session : Session) : Stamp :=
  ⟨session.now, ObjectId.ofCount (session.issued + 1)⟩

def advance (session : Session) (seconds : Number) : Session :=
  { session with clock := session.clock.sum seconds }

def run {α : Type} (session : Session) (interfere : Command → Store → Store)
    (program : Program α) : Except Failure α × List LogRecord × Session :=
  let outcome := program.run interfere session.store
  (outcome.result, outcome.records,
    { session with
      store := outcome.store
      issued := session.issued + outcome.insertions })

end Session

end AccessControl
