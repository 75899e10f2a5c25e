import Kreg.Trust

namespace Kreg
open ApiServer Counting
set_option autoImplicit true

section Statuses

variable [SecondsCast]

end Statuses

section Run

variable {F : Type} [Float64 F] [SecondsCast] {r : SystemRun F}

end Run

end Kreg
