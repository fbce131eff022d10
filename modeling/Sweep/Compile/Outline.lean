import Sweep.Artifact.Codec
import Sweep.Workflow.Codec
import Sweep.Compile.ResolvedTask

/-!
# Outlines of resolved models

What the compiler makes of a workflow and of the tasks of a space on its way to an artifact, as
documents, so that each step can be looked at.
-/

namespace Sweep

def ResolvedWorkflow.outline (w : ResolvedWorkflow) : Json :=
  .record
    [("name", .text w.name), ("parent", .ofText? w.parent), ("depth", .ofNat w.depth),
     ("lineage", .ofStrings w.lineage), ("tasks", .list (w.tasks.map Task.encode)),
     ("data", .list (w.data.map DataSlot.encode)),
     ("chain", (w.chain.map Chain.encode).getD .null), ("order", .ofStrings w.order),
     ("dataNames", .ofStrings w.dataNames)]

def ResolvedTask.outline (t : ResolvedTask) : Json :=
  .record
    [("id", .text t.id), ("name", .text t.name), ("workflow", .text t.workflow),
     ("declaredIn", .text t.declaredIn), ("depth", .ofNat t.depth), ("space", .text t.space),
     ("implementation", .text t.implementation), ("dynamic", .ofStrings t.dynamicParameters),
     ("static", ParameterSet.encode t.staticParameters), ("inputs", .ofStrings t.inputs),
     ("outputs", .ofStrings t.outputs)]

end Sweep
