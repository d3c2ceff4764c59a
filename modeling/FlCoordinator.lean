import FlCoordinator.Announcements
import FlCoordinator.Archive
import FlCoordinator.Arrival
import FlCoordinator.AuditFailures
import FlCoordinator.AuditView
import FlCoordinator.Baseline
import FlCoordinator.Client
import FlCoordinator.Completeness
import FlCoordinator.Confinement
import FlCoordinator.Credentials
import FlCoordinator.Dataset
import FlCoordinator.Departure
import FlCoordinator.Interrupted
import FlCoordinator.NoisedMerge
import FlCoordinator.Onboarding
import FlCoordinator.Participation
import FlCoordinator.Progress
import FlCoordinator.Promotion
import FlCoordinator.Readings
import FlCoordinator.Recovery
import FlCoordinator.Refusals
import FlCoordinator.Removal
import FlCoordinator.Restart
import FlCoordinator.Retries
import FlCoordinator.Robustness
import FlCoordinator.SingleUse
import FlCoordinator.Standing
import FlCoordinator.Submission
import FlCoordinator.TrustUpdates
import FlCoordinator.Validation
import FlCoordinator.Weights
