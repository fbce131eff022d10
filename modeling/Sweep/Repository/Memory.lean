import Sweep.Repository.Basic

/-!
# A repository in memory

Snapshots are kept in a table by the names of their runs. No operation of the table fails.
-/

namespace Sweep.Backend

/-- Keeps snapshots in a table. -/
def memory : Backend (Table RunSnapshot) where
  load runId runs := .ok (runs.get? runId)
  store snapshot runs := (.ok (), runs.insert snapshot.run.runId snapshot)
  remove runId runs := (.ok (runs.contains runId), runs.erase runId)
  runIds runs := .ok runs.keys

end Sweep.Backend
