import Intake.Flow.Governor
import Intake.Json.Value

/-!
# Reports on the flow

The state of a governor as an object, for whoever watches a worker.
-/

namespace Intake

/-- The settings, the count, and what the consumers of the topic ask for. -/
def Governor.json (governor : Governor) : Json :=
  .object
    [("enabled", .boolean governor.settings.enabled),
     ("topic", .text governor.topic),
     ("in_flight", .whole (.ofUnsigned governor.inFlight)),
     ("high_watermark", .whole (.ofUnsigned governor.settings.high)),
     ("low_watermark", .whole (.ofUnsigned governor.settings.low)),
     ("consumers", .array ((governor.fleet.demands governor.topic).map fun (name, demand) =>
        .object [("name", .text name), ("demand", .whole (.ofUnsigned demand))]))]

end Intake
