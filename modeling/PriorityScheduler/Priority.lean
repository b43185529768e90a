namespace PriorityScheduler

abbrev Priority := Int

namespace Priority

def lowest : Priority := -2147483648

def highest : Priority := 2147483647

def saturate (p : Int) : Priority := max lowest (min highest p)

def plus (p : Priority) (steps : Int) : Priority := saturate (p + steps)

def minus (p : Priority) (steps : Int) : Priority := saturate (p - steps)

/-- A count of steps; counts beyond the range are cut to its end. -/
def ofCount (n : Nat) : Priority := min highest n

end Priority

end PriorityScheduler
