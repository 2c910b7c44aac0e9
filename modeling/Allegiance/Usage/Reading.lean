import Allegiance.Document.Reading
import Allegiance.Usage.Basic

namespace Allegiance

open Document

namespace Usage

def readMember (u : Usage) (weapon : String) (count : Node) : Except Misread Usage :=
  (count.readUInt32).map (u.insert weapon)

def read : Reader Usage
  | .map members cut => foldMembers readMember cut members .empty
  | n => n.unexpected "a map of weapon names to non-negative kill counts"

end Usage

end Allegiance
