import FtpsServer.UserDatabase

/-!
# The user database as a map

What `ftp_user_database` is for: a map from logins to users with three operations that
say whether they did something.  The contents of the database are always those of the
map.  The results are not, since `add` and `erase` return truth values where
`OPERATION_SUCCESS` is 0, and `get` looks up the login of its in/out parameter.
-/

namespace FtpsServer

open ByteString

/-! ## 1. The map -/

abbrev UserMap := Bytes → Option FtpUser

namespace UserMap

/-- Bind the login of a user, if it is free. -/
def add (map : UserMap) (user : FtpUser) : Int × UserMap :=
  if (map user.login).isSome then (OPERATION_FAILURE, map)
  else (OPERATION_SUCCESS, fun login => if login = user.login then some user else map login)

/-- Unbind the login of a user, if it is bound. -/
def erase (map : UserMap) (user : FtpUser) : Int × UserMap :=
  if (map user.login).isSome then
    (OPERATION_SUCCESS, fun login => if login = user.login then none else map login)
  else (OPERATION_FAILURE, map)

/-- The login is bound to an entry with the password. -/
def Binds (map : UserMap) (login password : Bytes) : Prop :=
  ∃ entry, map login = some entry ∧ entry.password = password

/-- Look a login up; `user` is set only on success. -/
def get (map : UserMap) (login password : Bytes) (user : FtpUser) : Int × FtpUser :=
  match map login with
  | some entry =>
    if entry.password = password then (OPERATION_SUCCESS, entry) else (OPERATION_FAILURE, user)
  | none => (OPERATION_FAILURE, user)

def apply (map : UserMap) : FtpUserDatabase.Update → Int × UserMap
  | .add user => map.add user
  | .erase user => map.erase user

/-- The map after a history, and what the calls return. -/
def applyAll : UserMap → List FtpUserDatabase.Update → List Int × UserMap
  | map, [] => ([], map)
  | map, update :: updates =>
    let (result, map) := map.apply update
    let (results, map) := map.applyAll updates
    (result :: results, map)

end UserMap

/-! ## 2. Contents -/

namespace FtpUserDatabase

/-- What a call returns. -/
def result (database : FtpUserDatabase) : Update → Int
  | .add user => (database.add user).1
  | .erase user => (database.erase user).1

/-- What the calls of a history return. -/
def results : FtpUserDatabase → List Update → List Int
  | _, [] => []
  | database, update :: updates => database.result update :: (database.apply update).results updates

theorem apply_eq_map (database : FtpUserDatabase) (update : Update) :
    database.apply update = (UserMap.apply database update).2 := by
  cases update with
  | add user =>
    cases hentry : database user.login with
    | none =>
      simp only [apply, add, UserMap.apply, UserMap.add, hentry, Option.isSome_none,
        Bool.false_eq_true, if_false]
      funext login
      rw [Function.update_apply]
    | some entry => simp [apply, add, UserMap.apply, UserMap.add, hentry]
  | erase user =>
    cases hentry : database user.login with
    | none => simp [apply, erase, UserMap.apply, UserMap.erase, hentry]
    | some entry =>
      simp only [apply, erase, UserMap.apply, UserMap.erase, hentry, Option.isSome_some, if_true]
      funext login
      rw [Function.update_apply]

/-- **The contents are those of the map**, after every history. -/
theorem applyAll_eq_map (database : FtpUserDatabase) (updates : List Update) :
    database.applyAll updates = (UserMap.applyAll database updates).2 := by
  induction updates generalizing database with
  | nil => rfl
  | cons update updates ih =>
    change (database.apply update).applyAll updates = _
    rw [ih, apply_eq_map]
    rfl

/-! ## 3. Results -/

/-- No call returns what it should: an insertion returns 1 and a refused one 0, and `erase`
    returns 1 in both cases. -/
theorem result_ne_map (database : FtpUserDatabase) (update : Update) :
    database.result update ≠ (UserMap.apply database update).1 := by
  cases update with
  | add user =>
    cases hentry : database user.login <;>
      simp [result, add, UserMap.apply, UserMap.add, hentry, OPERATION_SUCCESS, OPERATION_FAILURE]
  | erase user =>
    cases hentry : database user.login <;>
      simp [result, erase, UserMap.apply, UserMap.erase, hentry, OPERATION_SUCCESS,
        OPERATION_FAILURE]

theorem results_iff (database : FtpUserDatabase) (updates : List Update) :
    database.results updates = (UserMap.applyAll database updates).1 ↔ updates = [] := by
  cases updates with
  | nil => exact iff_of_true rfl rfl
  | cons update updates =>
    refine iff_of_false ?_ (List.cons_ne_nil _ _)
    intro h
    exact result_ne_map database update (List.cons.inj h).1

/-! ## 4. Lookups -/

theorem map_get_eq (database : FtpUserDatabase) (login password : Bytes) (user : FtpUser) :
    UserMap.get database login password user =
      match database.matching login password with
      | some candidate => (OPERATION_SUCCESS, candidate)
      | none => (OPERATION_FAILURE, user) := by
  unfold UserMap.get matching
  cases database login with
  | none => rfl
  | some entry => by_cases h : entry.password = password <;> simp [Option.filter, h]

theorem matching_eq_none_iff (database : FtpUserDatabase) (login password : Bytes) :
    database.matching login password = none ↔ ¬ UserMap.Binds database login password := by
  rw [← Option.not_isSome_iff_eq_none, matching_isSome_iff]
  rfl

/-- **A lookup is the one of the map** when the in/out parameter has the login that is asked
    for, or neither login is bound to an entry with the password. -/
theorem get_iff {database : FtpUserDatabase} (hkeyed : database.Keyed) (login password : Bytes)
    (user : FtpUser) :
    database.get login password user = UserMap.get database login password user ↔
      login = user.login ∨ ¬ UserMap.Binds database login password ∧
        ¬ UserMap.Binds database user.login password := by
  rw [get_eq, map_get_eq, ← matching_eq_none_iff, ← matching_eq_none_iff]
  by_cases hlogin : login = user.login
  · subst hlogin
    exact iff_of_true rfl (Or.inl rfl)
  · simp only [hlogin, false_or]
    cases hown : database.matching user.login password with
    | none =>
      cases hasked : database.matching login password with
      | none => simp
      | some candidate => simp [OPERATION_SUCCESS, OPERATION_FAILURE]
    | some own =>
      cases hasked : database.matching login password with
      | none => simp [OPERATION_SUCCESS, OPERATION_FAILURE]
      | some candidate =>
        -- the entries have different logins
        have howner := hkeyed _ _ (matching_eq_some hown).1
        have hcandidate := hkeyed _ _ (matching_eq_some hasked).1
        refine iff_of_false ?_ (by simp)
        intro h
        obtain rfl : own = candidate := (Prod.ext_iff.mp h).2
        exact hlogin (hcandidate.symm.trans howner)

/-! ## 5. The refinement -/

/-- After a history the database, the results of its calls and a lookup are those of the map. -/
structure Refines (updates : List Update) (login password : Bytes) (user : FtpUser) : Prop where
  contents : initial.applyAll updates = (UserMap.applyAll initial updates).2
  results : initial.results updates = (UserMap.applyAll initial updates).1
  lookup : (initial.applyAll updates).get login password user =
    UserMap.get (UserMap.applyAll initial updates).2 login password user

/-- **The database refines the map** exactly when nothing was added or erased and the lookup
    is for the login of `user`, or finds nothing for either login.  The contents are right
    after every history, and the lookups under the condition alone. -/
theorem user_map_iff (updates : List Update) (login password : Bytes) (user : FtpUser) :
    (Refines updates login password user ↔
      updates = [] ∧ (login = user.login ∨
        ¬ UserMap.Binds (initial.applyAll updates) login password ∧
          ¬ UserMap.Binds (initial.applyAll updates) user.login password)) ∧
    initial.applyAll updates = (UserMap.applyAll initial updates).2 ∧
    ((initial.applyAll updates).get login password user =
        UserMap.get (UserMap.applyAll initial updates).2 login password user ↔
      login = user.login ∨
        ¬ UserMap.Binds (initial.applyAll updates) login password ∧
          ¬ UserMap.Binds (initial.applyAll updates) user.login password) := by
  have hcontents := applyAll_eq_map initial updates
  have hlookup := get_iff (keyed_initial.applyAll updates) login password user
  rw [← hcontents]
  refine ⟨?_, rfl, hlookup⟩
  rw [← results_iff initial updates, ← hlookup]
  constructor
  · intro h
    have hget := h.lookup
    rw [← hcontents] at hget
    exact ⟨h.results, hget⟩
  · rintro ⟨hresults, hget⟩
    exact ⟨hcontents, hresults, by rw [← hcontents]; exact hget⟩

/-- A user that is added is reported with 1, which is not `OPERATION_SUCCESS`; asked for
    `admin`, the database answers for the login that `user` has. -/
theorem add_reports_failure :
    ¬ ∀ updates login password user, Refines updates login password user := by
  intro h
  have hresults := (h [.add ⟨ascii "guest", ascii "guest", ascii "/tmp/"⟩] [] [] .empty).results
  have hcode : initial.results [.add ⟨ascii "guest", ascii "guest", ascii "/tmp/"⟩] = [1] := by
    decide +kernel
  have hmap : (UserMap.applyAll initial
      [.add ⟨ascii "guest", ascii "guest", ascii "/tmp/"⟩]).1 = [OPERATION_SUCCESS] := by
    decide +kernel
  rw [hcode, hmap] at hresults
  exact absurd hresults (by decide)

end FtpUserDatabase

end FtpsServer
