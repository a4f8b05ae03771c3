/-!
# Regions

The catalogue of regions, and the one text by which each of them goes on the wire.
-/

namespace MyS3

/-- The region a client talks to: a catalogue, and every other region by its text. -/
inductive S3Region where
  | awsUsEast1 | awsUsEast2 | awsUsWest1 | awsUsWest2 | awsCaCentral1 | awsCaWest1
  | awsMxCentral1 | awsSaEast1
  | awsEuWest1 | awsEuWest2 | awsEuWest3 | awsEuCentral1 | awsEuCentral2 | awsEuNorth1
  | awsEuSouth1 | awsEuSouth2
  | awsApEast1 | awsApSouth1 | awsApSouth2 | awsApSoutheast1 | awsApSoutheast2 | awsApSoutheast3
  | awsApSoutheast4 | awsApNortheast1 | awsApNortheast2 | awsApNortheast3 | awsMeCentral1
  | awsMeSouth1 | awsIlCentral1 | awsAfSouth1
  | awsUsGovEast1 | awsUsGovWest1 | awsCnNorth1 | awsCnNorthwest1
  | hetznerFsn1 | hetznerNbg1 | hetznerHel1
  | other (region : String)
  deriving DecidableEq, Repr

namespace S3Region

/-- The region exactly as it goes on the wire. -/
def asStr : S3Region → String
  | .awsUsEast1 => "us-east-1"
  | .awsUsEast2 => "us-east-2"
  | .awsUsWest1 => "us-west-1"
  | .awsUsWest2 => "us-west-2"
  | .awsCaCentral1 => "ca-central-1"
  | .awsCaWest1 => "ca-west-1"
  | .awsMxCentral1 => "mx-central-1"
  | .awsSaEast1 => "sa-east-1"
  | .awsEuWest1 => "eu-west-1"
  | .awsEuWest2 => "eu-west-2"
  | .awsEuWest3 => "eu-west-3"
  | .awsEuCentral1 => "eu-central-1"
  | .awsEuCentral2 => "eu-central-2"
  | .awsEuNorth1 => "eu-north-1"
  | .awsEuSouth1 => "eu-south-1"
  | .awsEuSouth2 => "eu-south-2"
  | .awsApEast1 => "ap-east-1"
  | .awsApSouth1 => "ap-south-1"
  | .awsApSouth2 => "ap-south-2"
  | .awsApSoutheast1 => "ap-southeast-1"
  | .awsApSoutheast2 => "ap-southeast-2"
  | .awsApSoutheast3 => "ap-southeast-3"
  | .awsApSoutheast4 => "ap-southeast-4"
  | .awsApNortheast1 => "ap-northeast-1"
  | .awsApNortheast2 => "ap-northeast-2"
  | .awsApNortheast3 => "ap-northeast-3"
  | .awsMeCentral1 => "me-central-1"
  | .awsMeSouth1 => "me-south-1"
  | .awsIlCentral1 => "il-central-1"
  | .awsAfSouth1 => "af-south-1"
  | .awsUsGovEast1 => "us-gov-east-1"
  | .awsUsGovWest1 => "us-gov-west-1"
  | .awsCnNorth1 => "cn-north-1"
  | .awsCnNorthwest1 => "cn-northwest-1"
  | .hetznerFsn1 => "fsn1"
  | .hetznerNbg1 => "nbg1"
  | .hetznerHel1 => "hel1"
  | .other region => region

/-- Reads a region; a text that is not in the catalogue is kept as it is. -/
def fromStr (src : String) : S3Region :=
  match src with
  | "us-east-1" => .awsUsEast1
  | "us-east-2" => .awsUsEast2
  | "us-west-1" => .awsUsWest1
  | "us-west-2" => .awsUsWest2
  | "ca-central-1" => .awsCaCentral1
  | "ca-west-1" => .awsCaWest1
  | "mx-central-1" => .awsMxCentral1
  | "sa-east-1" => .awsSaEast1
  | "eu-west-1" => .awsEuWest1
  | "eu-west-2" => .awsEuWest2
  | "eu-west-3" => .awsEuWest3
  | "eu-central-1" => .awsEuCentral1
  | "eu-central-2" => .awsEuCentral2
  | "eu-north-1" => .awsEuNorth1
  | "eu-south-1" => .awsEuSouth1
  | "eu-south-2" => .awsEuSouth2
  | "ap-east-1" => .awsApEast1
  | "ap-south-1" => .awsApSouth1
  | "ap-south-2" => .awsApSouth2
  | "ap-southeast-1" => .awsApSoutheast1
  | "ap-southeast-2" => .awsApSoutheast2
  | "ap-southeast-3" => .awsApSoutheast3
  | "ap-southeast-4" => .awsApSoutheast4
  | "ap-northeast-1" => .awsApNortheast1
  | "ap-northeast-2" => .awsApNortheast2
  | "ap-northeast-3" => .awsApNortheast3
  | "me-central-1" => .awsMeCentral1
  | "me-south-1" => .awsMeSouth1
  | "il-central-1" => .awsIlCentral1
  | "af-south-1" => .awsAfSouth1
  | "us-gov-east-1" => .awsUsGovEast1
  | "us-gov-west-1" => .awsUsGovWest1
  | "cn-north-1" => .awsCnNorth1
  | "cn-northwest-1" => .awsCnNorthwest1
  | "fsn1" => .hetznerFsn1
  | "nbg1" => .hetznerNbg1
  | "hel1" => .hetznerHel1
  | region => .other region

/-- Whether this is the default region, decided on the text. -/
def isUsEast1 (region : S3Region) : Bool := region.asStr == "us-east-1"

/-- Whether a region was configured at all. -/
def isEmpty (region : S3Region) : Bool := region.asStr.isEmpty

/-- A region that was read goes out again unchanged. -/
theorem asStr_fromStr (src : String) : (fromStr src).asStr = src := by
  unfold fromStr
  split <;> rfl

end S3Region

end MyS3
