import FtpsServer.FileSystem
import FtpsServer.Lib.StdMap

/-!
# Users, the user database and the observers

`ftp_user`, `ftp_user_database` and `ftp_notifier`.  The database is a `std::map`
from logins to users; its iteration order is used nowhere, so it is the map
itself.  The notifier's table is a `std::map` keyed by the observer alone.
-/

namespace FtpsServer

open ByteString

/-! ## 1. `ftp_user` -/

structure FtpUser where
  login : Bytes
  password : Bytes
  folder : Bytes
deriving DecidableEq, Repr

namespace FtpUser

def empty : FtpUser := ⟨[], [], []⟩

def setLogin (user : FtpUser) (login : Bytes) : FtpUser := { user with login := login }

def setPassword (user : FtpUser) (password : Bytes) : FtpUser := { user with password := password }

end FtpUser

/-! ## 2. `ftp_user_database` -/

/-- `FTP_USER_DATABASE`: the entry of every login. -/
abbrev FtpUserDatabase := Bytes → Option FtpUser

namespace FtpUserDatabase

def initial : FtpUserDatabase := fun login =>
  if login = ascii "admin" then some ⟨ascii "admin", ascii "admin", ascii "/home/"⟩
  else if login = ascii "annoviko" then some ⟨ascii "annoviko", ascii "12345", ascii "/home/"⟩
  else none

/-- `ftp_user_database::get`.  The key is the login of the in/out parameter
    `user`; the parameter `login` is only printed. -/
def get (database : FtpUserDatabase) (_login password : Bytes) (user : FtpUser) : Int × FtpUser :=
  match database user.login with
  | some candidate =>
    if candidate.password = password then (OPERATION_SUCCESS, candidate)
    else (OPERATION_FAILURE, user)
  | none => (OPERATION_FAILURE, user)

/-- The entry that a login and a password match. -/
def matching (database : FtpUserDatabase) (login password : Bytes) : Option FtpUser :=
  (database login).filter fun candidate => candidate.password == password

theorem get_eq (database : FtpUserDatabase) (login password : Bytes) (user : FtpUser) :
    get database login password user =
      match database.matching user.login password with
      | some candidate => (OPERATION_SUCCESS, candidate)
      | none => (OPERATION_FAILURE, user) := by
  unfold get matching
  cases database user.login with
  | none => rfl
  | some candidate =>
    by_cases h : candidate.password = password <;> simp [Option.filter, h]

theorem matching_isSome_iff (database : FtpUserDatabase) (login password : Bytes) :
    (database.matching login password).isSome = true ↔
      ∃ entry, database login = some entry ∧ entry.password = password := by
  unfold matching
  cases database login with
  | none => simp
  | some entry => by_cases h : entry.password = password <;> simp [Option.filter, h]

theorem matching_eq_some {database : FtpUserDatabase} {login password : Bytes} {entry : FtpUser}
    (h : database.matching login password = some entry) :
    database login = some entry ∧ entry.password = password := by
  rcases Option.filter_eq_some_iff.mp h with ⟨hentry, hpassword⟩
  exact ⟨hentry, eq_of_beq hpassword⟩

/-- `ftp_user_database::add`: the result is a truth value. -/
def add (database : FtpUserDatabase) (user : FtpUser) : Int × FtpUserDatabase :=
  match database user.login with
  | none => (1, Function.update database user.login (some user))
  | some _ => (0, database)

/-- `ftp_user_database::erase`: it is true in both cases. -/
def erase (database : FtpUserDatabase) (user : FtpUser) : Int × FtpUserDatabase :=
  match database user.login with
  | some _ => (1, Function.update database user.login none)
  | none => (1, database)

/-- The two operations that change the database. -/
inductive Update where
  | add (user : FtpUser)
  | erase (user : FtpUser)
deriving DecidableEq, Repr

def apply (database : FtpUserDatabase) : Update → FtpUserDatabase
  | .add user => (database.add user).2
  | .erase user => (database.erase user).2

def applyAll (database : FtpUserDatabase) (updates : List Update) : FtpUserDatabase :=
  updates.foldl apply database

/-- Every entry is stored under its own login. -/
def Keyed (database : FtpUserDatabase) : Prop :=
  ∀ login entry, database login = some entry → entry.login = login

theorem keyed_initial : Keyed initial := by
  intro login entry h
  unfold initial at h
  split at h
  · next hlogin =>
    cases h
    exact hlogin.symm
  · split at h
    · next hlogin =>
      cases h
      exact hlogin.symm
    · cases h

theorem Keyed.update {database : FtpUserDatabase} (h : Keyed database) {key : Bytes}
    {value : Option FtpUser} (hvalue : ∀ entry, value = some entry → entry.login = key) :
    Keyed (Function.update database key value) := by
  intro login entry hentry
  by_cases hlogin : login = key
  · rw [hlogin, Function.update_self] at hentry
    rw [hlogin]
    exact hvalue entry hentry
  · rw [Function.update_of_ne hlogin] at hentry
    exact h login entry hentry

theorem Keyed.add {database : FtpUserDatabase} (h : Keyed database) (user : FtpUser) :
    Keyed (database.add user).2 := by
  unfold FtpUserDatabase.add
  cases database user.login with
  | some other => exact h
  | none =>
    apply h.update
    intro entry hentry
    cases hentry
    rfl

theorem Keyed.erase {database : FtpUserDatabase} (h : Keyed database) (user : FtpUser) :
    Keyed (database.erase user).2 := by
  unfold FtpUserDatabase.erase
  cases database user.login with
  | none => exact h
  | some other =>
    apply h.update
    intro entry hentry
    cases hentry

/-- **The keys of the database** are the logins of its entries, whatever was added and
    erased. -/
theorem Keyed.applyAll {database : FtpUserDatabase} (h : Keyed database)
    (updates : List Update) : Keyed (database.applyAll updates) := by
  induction updates generalizing database with
  | nil => exact h
  | cons update updates ih =>
    apply ih
    cases update with
    | add user => exact h.add user
    | erase user => exact h.erase user

end FtpUserDatabase

/-! ## 3. `ftp_notifier` -/

inductive FtpObserveEventT where
  | filePut
  | fileGet
  | any
deriving DecidableEq, Repr

/-- `observe_table_t`: observers are known by a number, one event for each. -/
abbrev FtpNotifier := List (Nat × FtpObserveEventT)

namespace FtpNotifier

/-- `ftp_notifier::register_observer`: the result of the insertion is not looked at. -/
def registerObserver (observers : FtpNotifier) (observer : Nat) (event : FtpObserveEventT) :
    Int × FtpNotifier :=
  (OPERATION_SUCCESS, Cxx.StdMap.insert observer event observers)

/-- `ftp_notifier::unregister_observer`. -/
def unregisterObserver : FtpNotifier → Nat → FtpObserveEventT → Int × FtpNotifier
  | [], _, _ => (OPERATION_FAILURE, [])
  | entry :: rest, observer, event =>
    if entry.1 = observer ∧ entry.2 = event then (OPERATION_SUCCESS, rest)
    else
      let (result, rest) := unregisterObserver rest observer event
      (result, entry :: rest)

/-- `ftp_notifier::notify_observers`: the observers that are signalled. -/
def notifyObservers (observers : FtpNotifier) (event : FtpObserveEventT) : List Nat :=
  (observers.filter fun observer => observer.2 == event).map Prod.fst

end FtpNotifier

end FtpsServer
