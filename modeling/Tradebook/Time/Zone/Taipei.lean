import Tradebook.Time.Zone

/-!
# The clocks of Taipei

A date that is given without a zone is meant as in Taipei. These are the changes
that the time zone database records there.
-/

namespace Tradebook.Zone

/-- Taipei, complete: summer time ended for good in 1979, and 1945 brought the return from the
clocks of Tokyo. -/
def taipei : Zone where
  initial := 29160
  changes := [
    (-2335248360, 28800), (-1017820800, 32400), (-766224000, 28800), (-745833600, 32400),
    (-733827600, 28800), (-716889600, 32400), (-699613200, 28800), (-683884800, 32400),
    (-670669200, 28800), (-652348800, 32400), (-639133200, 28800), (-620812800, 32400),
    (-607597200, 28800), (-589276800, 32400), (-576061200, 28800), (-562924800, 32400),
    (-541760400, 28800), (-528710400, 32400), (-510224400, 28800), (-497174400, 32400),
    (-478688400, 28800), (-465638400, 32400), (-449830800, 28800), (-434016000, 32400),
    (-418208400, 28800), (-402480000, 32400), (-386672400, 28800), (-370944000, 32400),
    (-355136400, 28800), (-339408000, 32400), (-323600400, 28800), (-302515200, 32400),
    (-291978000, 28800), (-270979200, 32400), (-260442000, 28800), (133977600, 32400),
    (149785200, 28800), (165513600, 32400), (181321200, 28800), (299606400, 32400),
    (307551600, 28800)]

end Tradebook.Zone
