import IsoTransport.Settings.Document

/-!
A store of the active settings, which are replaced as a whole and only by valid ones. A snapshot is
the value itself, so later changes cannot reach it.
-/

namespace IsoTransport

structure SettingsStore where
  current : Settings := {}
  deriving DecidableEq

namespace SettingsStore

def ofSettings (s : Settings) : Except Fault SettingsStore := SettingsStore.mk <$> s.check

/-- Puts new settings in place; on a fault the store is as it was. -/
def replace (store : SettingsStore) (s : Settings) : Except Fault Settings × SettingsStore :=
  match s.check with
  | .ok s => (.ok s, { store with current := s })
  | .error fault => (.error fault, store)

def load (store : SettingsStore) (text : String) : Except Fault Settings × SettingsStore :=
  match Settings.parse text with
  | .ok s => store.replace s
  | .error fault => (.error fault, store)

end SettingsStore

end IsoTransport
