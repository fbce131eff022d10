import Sweep.Repository.Operation
import Sweep.Run.Outline

/-!
# Outlines of replies

What an operation of a repository answers, apart from times. Two repositories that have gone
through the same history give replies with the same outlines.
-/

namespace Sweep

def Json.ofRecord? (shown : Option (List Json)) : Json := (shown.map Json.list).getD .null

def Reply.outline : Reply → Json
  | .done => .text "ok"
  | .removed wasThere => .bool wasThere
  | .run r => (r.map RunRecord.outline).getD .null
  | .runs rs => .list (rs.map fun r => .list [.text r.runId, .text r.status.name])
  | .names found => .ofStrings found
  | .snapshot s => s.outline
  | .space r => .ofRecord? (r.map SpaceRecord.outline)
  | .set r => .ofRecord? (r.map SetRecord.outline)
  | .task r => .ofRecord? (r.map TaskRecord.outline)
  | .mapping m => (m.map DataMapping.outline).getD .null
  | .mappings ms => .list (ms.map DataMapping.outline)
  | .control c => .ofText? (c.map (·.space))
  | .counts c => c.encode

end Sweep
