/-! # Colours

    Opaque colours as numbers of 32 bits: alpha, red, green and blue. -/

namespace MessageBody.Color

/-- A number of 32 bits. -/
def Fits (color : Int) : Prop := 0 ≤ color ∧ color < 0x100000000

def black : Int := 0xFF000000

def blue : Int := 0xFF0000FF

def gray : Int := 0xFF888888

def red : Int := 0xFFFF0000

def white : Int := 0xFFFFFFFF

end MessageBody.Color
