import OnestiLock.JsonRoundTrip

/-! Python's writing of JSON without an indent, one value a line. Lines are
told apart and read back. -/

namespace Json

open Python

section

variable (reprFloat : Real → Text)

/-- `json.dumps`. -/
def dumps (v : Value) : Text := write .compact reprFloat 0 v

end

section

variable {reprFloat : Real → Text}

end

end Json
