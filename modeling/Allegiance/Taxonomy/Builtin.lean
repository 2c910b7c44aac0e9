import Allegiance.Taxonomy.Basic

namespace Allegiance.Taxonomy

def builtinVersion : String := "2024.06"

/-- The weapons as the kill logs spell them. -/
def builtinGroups : List WeaponGroup :=
  [ { nation := "germany"
      faction := .axis
      infantry :=
      ["KARABINER 98K", "KARABINER 98K x8", "GEWEHR 43", "STG44", "FG42", "FG42 x4", "MP40", "MG34",
       "MG42", "WALTHER P38", "LUGER P08", "FLAMMENWERFER 41", "PANZERSCHRECK",
       "M24 STIELHANDGRANATE", "M43 STIELHANDGRANATE", "S-MINE", "TELLERMINE 43", "FELDSPATEN",
       "KAR98K BAYONET"]
      vehicles :=
      ["75MM CANNON [PAK 40]", "150MM HOWITZER [sFH 18]", "75MM CANNON [Sd.Kfz.161 Panzer IV]",
       "COAXIAL MG34 [Sd.Kfz.161 Panzer IV]", "HULL MG34 [Sd.Kfz.161 Panzer IV]",
       "75MM CANNON [Sd.Kfz.171 Panther]", "COAXIAL MG34 [Sd.Kfz.171 Panther]",
       "HULL MG34 [Sd.Kfz.171 Panther]", "88 KWK 36 L/56 [Sd.Kfz.181 Tiger 1]",
       "COAXIAL MG34 [Sd.Kfz.181 Tiger 1]", "HULL MG34 [Sd.Kfz.181 Tiger 1]",
       "20MM KWK 30 [Sd.Kfz.121 Luchs]", "COAXIAL MG34 [Sd.Kfz.121 Luchs]",
       "75MM CANNON [Sd.Kfz.142 StuG III]", "MG 42 [Sd.Kfz 251 Half-track]",
       "Opel Blitz (Transport)", "Opel Blitz (Supply)", "Kubelwagen", "Sd.Kfz 251 Half-track"] },
    { nation := "afrika_korps"
      faction := .axis
      infantry :=
      ["KARABINER 98K", "GEWEHR 43", "MP40", "MG34", "WALTHER P38", "PANZERSCHRECK",
       "M24 STIELHANDGRANATE"]
      vehicles :=
      ["50mm KwK 39/1 [Sd.Kfz.234 Puma]", "COAXIAL MG34 [Sd.Kfz.234 Puma]",
       "75MM SHORT BARREL [Sd.Kfz.161 Panzer IV F1]", "COAXIAL MG34 [Sd.Kfz.161 Panzer IV F1]",
       "88MM FLAK 36 [Flak 88]"] },
    { nation := "united_states"
      faction := .allies
      infantry :=
      ["M1 GARAND", "M1 CARBINE", "M1A1 THOMPSON", "M3 GREASE GUN", "M1918A2 BAR", "BROWNING M1919",
       "M1903 SPRINGFIELD", "M97 TRENCH GUN", "COLT M1911", "M2 FLAMETHROWER", "BAZOOKA",
       "MK2 GRENADE", "M2 AP MINE", "M1A1 AT MINE", "M3 KNIFE"]
      vehicles :=
      ["57MM CANNON [M1 57mm]", "155MM HOWITZER [M114]", "75MM CANNON [Sherman M4A3(75)W]",
       "COAXIAL M1919 [Sherman M4A3(75)W]", "HULL M1919 [Sherman M4A3(75)W]",
       "76MM M1 GUN [Sherman M4A3E2(76)]", "COAXIAL M1919 [Sherman M4A3E2(76)]",
       "HULL M1919 [Sherman M4A3E2(76)]", "37MM CANNON [Stuart M5A1]",
       "COAXIAL M1919 [Stuart M5A1]", "HULL M1919 [Stuart M5A1]", "M2 Browning [M3 Half-track]",
       "GMC CCKW 353 (Transport)", "GMC CCKW 353 (Supply)", "Jeep Willys", "M3 Half-track"] },
    { nation := "soviet_union"
      faction := .allies
      infantry :=
      ["MOSIN NAGANT 1891", "MOSIN NAGANT 91/30", "MOSIN NAGANT M38", "SCOPED MOSIN NAGANT 91/30",
       "SVT40", "SCOPED SVT40", "PPSH 41", "PPSH 41 W/DRUM", "DP-27", "NAGANT M1895",
       "TOKAREV TT33", "PTRS-41", "RG-42 GRENADE", "MOLOTOV", "POMZ AP MINE", "TM-35 AT MINE",
       "MPL-50 SPADE"]
      vehicles :=
      ["57MM CANNON [ZiS-2]", "122MM HOWITZER [M1938 (M-30)]", "76MM ZiS-5 [T34/76]",
       "COAXIAL DT [T34/76]", "HULL DT [T34/76]", "D-5T 85MM [IS-1]", "COAXIAL DT [IS-1]",
       "HULL DT [IS-1]", "45MM M1937 [T70]", "COAXIAL DT [T70]", "M2 Browning [M3 Half-track]",
       "ZIS-5 (Transport)", "ZIS-5 (Supply)", "GAZ-67"] },
    { nation := "great_britain"
      faction := .allies
      infantry :=
      ["LEE-ENFIELD PATTERN 1914", "SCOPED LEE-ENFIELD PATTERN 1914", "LEE-ENFIELD No.4 MK I",
       "SCOPED LEE-ENFIELD No.4 MK I", "RIFLE No.5 MK I", "STEN GUN", "STEN GUN MK V", "LANCHESTER",
       "BREN GUN", "LEWIS GUN", "WEBLEY MK VI", "FLAMETHROWER", "PIAT", "BOYS ANTI-TANK RIFLE",
       "MILLS BOMB", "A.P. SHRAPNEL MINE Mk II", "A.T. MINE G.S. Mk V", "FAIRBAIRN-SYKES"]
      vehicles :=
      ["QF 6-POUNDER [QF 6-Pounder]", "QF 25-POUNDER [QF 25-Pounder]", "QF 75MM [Cromwell]",
       "COAXIAL BESA [Cromwell]", "HULL BESA [Cromwell]", "QF 17-POUNDER [Firefly]",
       "COAXIAL M1919 [Firefly]", "OQF 57MM [Churchill Mk.VII]",
       "COAXIAL BESA 7.92mm [Churchill Mk.VII]", "HULL BESA 7.92mm [Churchill Mk.VII]",
       "QF 2-POUNDER [Tetrarch]", "COAXIAL BESA 7.92mm [Tetrarch]", "QF 2-POUNDER [Daimler]",
       "COAXIAL BESA 7.92mm [Daimler]", "37MM CANNON [Stuart M5A1]", "COAXIAL M1919 [Stuart M5A1]",
       "Bedford OYD (Transport)", "Bedford OYD (Supply)"] } ]

/-- The table where no file is named. -/
def builtin : Except TaxonomyFlaw Taxonomy := ofGroups builtinVersion builtinGroups

end Allegiance.Taxonomy
