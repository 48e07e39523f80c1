/-!
The version that this library reports of itself.
-/

namespace Enrolment

def version : String := "0.1.0"

end Enrolment
