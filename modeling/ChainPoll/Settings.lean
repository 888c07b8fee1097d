/-!
# Settings

The address of a service on the same machine, the timing of calls, the size of a page, and the paths
of the resources.  Times are in seconds.
-/

namespace ChainPoll
namespace Settings

/-- The base address of a service on the same machine. -/
def defaultAddress : String := "http://localhost:1317"

/-- The time within which one attempt must be answered. -/
def attemptTimeout : Nat := 5

/-- The time between attempts. -/
def retryPeriod : Nat := 5

/--
Of the failed attempts after the first, every one with a number divisible by this is reported.
-/
def reportInterval : Nat := 5

/-- The number of records on a full page of events. -/
def pageLimit : Nat := 50

/-- The path of the latest checkpoint. -/
def checkpointPath : String := "/checkpoints/latest"

/-- The path of the number of checkpoints. -/
def checkpointCountPath : String := "/checkpoints/count"

/-- The path of the latest milestone. -/
def milestonePath : String := "/milestone"

/-- The path of the number of milestones. -/
def milestoneCountPath : String := "/milestone/count"

/-- The path of all spans; the identifier of one follows. -/
def spanFolder : String := "bor/span/"

/-- The path of the list of events. -/
def eventsPath : String := "clerk/event-record/list"

end Settings
end ChainPoll
