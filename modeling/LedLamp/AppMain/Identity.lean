import LedLamp.AppConfig.Schema
/-!
# The device identity (`device_identity_facade.c`)

The credentials themselves are kept by `tb_identity`, which is not part of the
repository. It is taken to be a cell: a successful `tb_identity_load` fills it,
`tb_identity_clear` empties it. What a load finds is left open, as is what
`app_config_load_manufacturing` returns.
-/

namespace LedLamp.AppMain

open AppConfig

/-- `device_identity_status_t`. -/
inductive DeviceIdentityStatus
  | ok
  | errInvalidArgument
  | errIo
  | errNotFound
  | errMalformed
  | errBounds
  | errUnknownSchema
  | errUnprovisioned
  | errEmptyClientId
  | errEmptyToken
  | errNotLoaded
  deriving DecidableEq, Repr

/-- The failures of `tb_identity_load`; `other` is every code the module does not name. -/
inductive TbIdentityError
  | errArgument
  | errIo
  | errNotFound
  | errMalformed
  | errBounds
  | errUnknownSchema
  | errEmptyClientId
  | errEmptyToken
  | other
  deriving DecidableEq, Repr

/-- `tb_identity_credentials_t`. -/
structure TbIdentityCredentials where
  clientId : List UInt8
  accessToken : List UInt8
  deriving DecidableEq

/-- `s_loaded` of the facade, and the cell of `tb_identity`. -/
structure DeviceIdentity where
  loaded : Bool
  credentials : Option TbIdentityCredentials
  deriving DecidableEq

/-- The static initializers. -/
def DeviceIdentity.boot : DeviceIdentity := ⟨false, none⟩

/-- What one `device_identity_load` finds: the outcome of
`app_config_load_manufacturing` with its document, and of `tb_identity_load`. -/
structure IdentityAnswers where
  appConfigLoadManufacturing : AppConfigStatus
  manufacturing : AppConfigManufacturingDoc
  tbIdentityLoad : Except TbIdentityError TbIdentityCredentials

def deviceIdentityCheckProvisioning (a : IdentityAnswers) : DeviceIdentityStatus :=
  match a.appConfigLoadManufacturing with
  | .error .errNotFound => .errUnprovisioned
  | .error .errBounds => .errBounds
  | .error .errUnknownSchema => .errUnknownSchema
  | .error .errIo | .error .errUnsupported => .errIo
  | .error .errInvalidArgument => .errInvalidArgument
  | .error _ => .errMalformed
  | .ok | .okRecovered =>
    if a.manufacturing.manufacturingState ≠ APP_CONFIG_MFG_STATE_PROVISIONED ∨
        a.manufacturing.credentialMode = APP_CONFIG_CRED_MODE_NONE then .errUnprovisioned
    else .ok

/-- `device_identity_map_store_status`, of a failure. -/
def deviceIdentityMapStoreStatus : TbIdentityError → DeviceIdentityStatus
  | .errArgument => .errInvalidArgument
  | .errIo => .errIo
  | .errNotFound => .errNotFound
  | .errMalformed => .errMalformed
  | .errBounds => .errBounds
  | .errUnknownSchema => .errUnknownSchema
  | .errEmptyClientId => .errEmptyClientId
  | .errEmptyToken => .errEmptyToken
  | .other => .errIo

/-- The status, and what is loaded afterwards. A failed load also forces the lamp
off; its caller's trace shows that. -/
def deviceIdentityLoad (a : IdentityAnswers) : DeviceIdentityStatus × DeviceIdentity :=
  match deviceIdentityCheckProvisioning a with
  | .ok =>
    match a.tbIdentityLoad with
    | .ok credentials => (.ok, ⟨true, some credentials⟩)
    | .error e => (deviceIdentityMapStoreStatus e, ⟨false, none⟩)
  | status => (status, ⟨false, none⟩)

def deviceIdentityIsLoaded (s : DeviceIdentity) : Bool := s.loaded && s.credentials.isSome

def deviceIdentityClientId (s : DeviceIdentity) : Except DeviceIdentityStatus (List UInt8) :=
  match s.loaded, s.credentials with
  | true, some credentials => .ok credentials.clientId
  | _, _ => .error .errNotLoaded

def deviceIdentityToken (s : DeviceIdentity) : Except DeviceIdentityStatus (List UInt8) :=
  match s.loaded, s.credentials with
  | true, some credentials => .ok credentials.accessToken
  | _, _ => .error .errNotLoaded

/-- A load succeeds exactly when it leaves the identity loaded. -/
theorem deviceIdentityLoad_ok_iff (a : IdentityAnswers) :
    (deviceIdentityLoad a).1 = .ok ↔ deviceIdentityIsLoaded (deviceIdentityLoad a).2 = true := by
  unfold deviceIdentityLoad
  split
  · split
    · simp [deviceIdentityIsLoaded]
    · rename_i e _
      cases e <;> simp [deviceIdentityIsLoaded, deviceIdentityMapStoreStatus]
  · rename_i hs
    simpa [deviceIdentityIsLoaded] using hs

theorem deviceIdentityLoad_loaded {a : IdentityAnswers} {identity : DeviceIdentity}
    (h : deviceIdentityLoad a = (.ok, identity)) : deviceIdentityIsLoaded identity = true := by
  have := (deviceIdentityLoad_ok_iff a).1 (by rw [h])
  rwa [h] at this

/-- A loaded identity hands out a token and a client id, any other one neither. -/
theorem deviceIdentity_getters (s : DeviceIdentity) :
    (deviceIdentityIsLoaded s = true ∧ ∃ credentials, s.credentials = some credentials ∧
        deviceIdentityToken s = .ok credentials.accessToken ∧ deviceIdentityClientId s = .ok credentials.clientId) ∨
      (deviceIdentityIsLoaded s = false ∧ deviceIdentityToken s = .error .errNotLoaded ∧
        deviceIdentityClientId s = .error .errNotLoaded) := by
  obtain ⟨loaded, credentials⟩ := s
  cases loaded with
  | false => exact .inr ⟨rfl, rfl, rfl⟩
  | true =>
    cases credentials with
    | none => exact .inr ⟨rfl, rfl, rfl⟩
    | some credentials => exact .inl ⟨rfl, credentials, rfl, rfl, rfl⟩

end LedLamp.AppMain
