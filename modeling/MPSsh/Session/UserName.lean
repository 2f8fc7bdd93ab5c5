import MPSsh.Session.Rules

namespace MPSsh.MPSshSession

open Interaction Method

/-- The user name that the library sends to the server in a request: as many bytes as
the call says, or the C string. -/
def sentUserName : SessionCall → Option (List UInt8)
  | .userauthList username length => username.map (·.take length)
  | .userauthPublickeyFromfile username _ _ _ => username.map cString
  | .userauthPassword username _ => username.map cString
  | .userauthKeyboardInteractive username _ => username.map cString
  | _ => none

/-- Every authentication request sends the full UTF-8 encoding of the user's name. -/
def oneUserName (user : String) : Monitor SessionCall SessionCall.Reply Unit where
  allows _ c := c.isUserauth = true → sentUserName c = some (utf8 user)
  expects _ _ _ := True
  next _ _ _ := ()

/-- The parameters hold the user's name. -/
def Named (user : String) (s : Frame) (_ : Unit) : Prop :=
  s.params.user = some user

section Attempt

variable {user : String} {s : Frame}

theorem oneUserName_silent : ∀ c, isSilent c = true → Ignores (oneUserName user) c := by
  intro c hc
  refine ⟨fun _ huserauth => ?_, fun _ _ => rfl⟩
  cases c <;> simp [isSilent, SessionCall.isUserauth] at hc huserauth

theorem named_framed : Framed (Named user) :=
  fun _ _ _ _ _ hparams h => (congrArg MPConnectionParams.user hparams).trans h

/-- The list request counts UTF-16 units, and sends the full name only if there are as
many of them as bytes. -/
theorem userauthList_allowed_iff :
    (oneUserName user).allows () (.userauthList (some (utf8 user)) (utf16Length user)) ↔ IsAscii user := by
  obtain ⟨hle, heq⟩ := utf16Length_le_and_eq_iff user
  rw [← heq]
  simp only [oneUserName, SessionCall.isUserauth, sentUserName, Option.map_some, Option.some.injEq, forall_const]
  rw [List.take_eq_self_iff]
  omega

theorem userauthList_named (hascii : IsAscii user) : Maintains (oneUserName user) (Named user) userauthList := by
  unfold userauthList
  apply maintains_toSession
  intro session s _ h
  rw [sat_bind, sat_get, andThen_returns, sat_bind]
  unfold MPLSSession.userauthListWithUser
  split
  · rw [sat_bind, show s.params.user = some user from h]
    refine sat_call.mpr ⟨userauthList_allowed_iff.mpr hascii, fun ual _ => ?_⟩
    cases ual with
    | none => exact h
    | some ual => exact h
  · exact h

/-- The other requests count the bytes up to a NUL. -/
theorem request_allowed (hnul : 0 ∉ utf8 user) {c : SessionCall}
    (hsent : sentUserName c = (s.params.user.map utf8).map cString) (h : Named user s ()) :
    (oneUserName user).allows () c := by
  intro _
  rw [hsent, show s.params.user = some user from h, Option.map_some, Option.map_some, cString_eq_self hnul]

theorem authenticateWithParams_named (hnul : 0 ∉ utf8 user) (hascii : IsAscii user) :
    Maintains (oneUserName user) (Named user) authenticateWithParams := by
  apply authenticateWithParams_maintains named_framed oneUserName_silent (userauthList_named hascii)
  · exact authenticate_maintains named_framed oneUserName_silent fun _ _ h =>
      sat_call.mpr ⟨request_allowed hnul rfl h, fun _ _ => h⟩
  · exact authenticate_maintains named_framed oneUserName_silent fun _ _ h =>
      sat_call.mpr ⟨request_allowed hnul rfl h, fun _ _ => h⟩
  · exact authenticate_maintains named_framed oneUserName_silent fun _ _ h =>
      sat_call.mpr ⟨request_allowed hnul rfl h, fun _ _ => h⟩
  · exact fun _ _ _ _ h => h

/-- The first request of an attempt asks for the list. -/
theorem userauthList_allowed_of_sat {M : Monitor SessionCall SessionCall.Reply Unit}
    {Q : Outcome Bool → Frame → Unit → Prop} (hsession : s.session = some { userauthlist := none })
    (huser : s.params.user = some user) (hsat : Sat M authenticateWithParams Q s ()) :
    M.allows () (.userauthList (some (utf8 user)) (utf16Length user)) := by
  unfold authenticateWithParams userauthList at hsat
  rw [sat_bind, sat_toSession hsession, sat_bind, sat_get, andThen_returns, sat_bind] at hsat
  unfold MPLSSession.userauthListWithUser at hsat
  rw [if_pos (by rfl), sat_bind, sat_call, huser] at hsat
  exact hsat.1

end Attempt

/-- For every user's name without NUL, all authentication requests of an attempt send
its full UTF-8 encoding, whatever the library answers, if and only if it is ASCII. -/
theorem authenticateWithParams_userName_iff {user : String} (hnul : 0 ∉ utf8 user) {s : Frame}
    (hsession : s.session = some { userauthlist := none }) (huser : s.params.user = some user) :
    Sat (oneUserName user) authenticateWithParams (fun _ _ _ => True) s () ↔ IsAscii user := by
  constructor
  · exact fun hsat => userauthList_allowed_iff.mp (userauthList_allowed_of_sat hsession huser hsat)
  · exact fun hascii => (authenticateWithParams_named hnul hascii s () huser).mono fun _ _ _ _ => trivial

/-- A session that has been started for a user. -/
def startedFor (user : String) : Frame where
  sock := 5
  connected := false
  session := some { userauthlist := none }
  delegate := ⟨false, false, false⟩
  params := ⟨some "host", 22, some user, some "secret", some "", some "", none, false, false⟩
  wantsError := true
  error := none

theorem authenticateWithParams_userName_iff_root :
    Sat (oneUserName "root") authenticateWithParams (fun _ _ _ => True) (startedFor "root") () ↔ IsAscii "root" :=
  authenticateWithParams_userName_iff (by decide +kernel) rfl rfl

/-- The list is asked for a name that has been cut. -/
theorem userName_cut :
    ¬ ∀ (user : String) (s : Frame), 0 ∉ utf8 user → s.session = some { userauthlist := none } →
      s.params.user = some user → Sat (oneUserName user) authenticateWithParams (fun _ _ _ => True) s () := by
  intro halways
  have hsat := halways "süd" (startedFor "süd") (by decide +kernel) rfl rfl
  have hascii : IsAscii "süd" := userauthList_allowed_iff.mp (userauthList_allowed_of_sat rfl rfl hsat)
  exact absurd (hascii 'ü' (by decide +kernel)) (by decide)

end MPSsh.MPSshSession
