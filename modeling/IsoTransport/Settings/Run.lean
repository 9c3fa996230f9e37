import IsoTransport.Mealy
import IsoTransport.Settings.Store

/-!
Runs of a store: the answers to a list of calls, and the store they leave behind.
-/

namespace IsoTransport.SettingsStore

inductive Call where
  | load (text : String)
  | replace (settings : Settings)
  | snapshot
  deriving DecidableEq

def step (store : SettingsStore) : Call → Except Fault Settings × SettingsStore
  | .load text => store.load text
  | .replace settings => store.replace settings
  | .snapshot => (.ok store.current, store)

def answers (store : SettingsStore) (calls : List Call) : List (Except Fault Settings) :=
  Mealy.answers step store calls

def run (store : SettingsStore) (calls : List Call) : SettingsStore := Mealy.run step store calls

theorem run_cons (store : SettingsStore) (call : Call) (calls : List Call) :
    store.run (call :: calls) = (store.step call).2.run calls := rfl

theorem answers_cons (store : SettingsStore) (call : Call) (calls : List Call) :
    store.answers (call :: calls) = (store.step call).1 :: (store.step call).2.answers calls := rfl

end IsoTransport.SettingsStore
