import Tradebook.Run

/-!
# A store at an address

The store of a database, which is part of the world `σ` and any request to which
may fail. What is copied into it is kept also where a run ends early.
-/

namespace Tradebook

/-- The way to a database. Opening one that cannot be opened comes with the reason. -/
structure Database (σ : Type) where
  connect : String → σ → Option String × σ
  store : σ → Store
  keep : Store → σ → σ
  around : Surroundings σ

namespace Database

/-- Copies a history into the database. -/
def sync {σ ρ : Type} (db : Database σ) (history : History σ ρ) (pageLimit steps : Nat)
    (start : Timestamp) (s : σ) : Outcome SyncError Unit × σ :=
  match Sync.run db.around history pageLimit steps start (db.store s) s with
  | (result, store, s) => (result, db.keep store s)

/-- Copies a history of a symbol from an exchange. -/
def syncKind {σ : Type} (db : Database σ) (exchange : Exchange σ) (pageLimit steps : Nat)
    (kind : RecordKind) (symbol : String) (start : Timestamp) : σ → Outcome SyncError Unit × σ :=
  match kind with
  | .trades => db.sync (.trades exchange symbol) pageLimit steps start
  | .orders => db.sync (.orders exchange symbol) pageLimit steps start

/-- The accounts at some exchanges, all copied into one database. -/
def accounts {σ : Type} (db : Database σ) (exchange : Nat → Exchange σ) (pageLimit steps : Nat) :
    Accounts σ where
  stopped := db.around.stopped
  balances position := (exchange position).balances
  markets position := (exchange position).markets
  sync kind position symbol start :=
    db.syncKind (exchange position) pageLimit steps kind symbol start

end Database

end Tradebook
