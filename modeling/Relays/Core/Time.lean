namespace Relays

/-- Microseconds, the resolution of `timestamptz`. -/
abbrev Time := Nat

abbrev Uuid := Nat

def seconds (count : Nat) : Time := count * 1000000

/-- `datetime.max`, the last microsecond of the year 9999. -/
def datetimeMax : Time := 253402300799999999

end Relays
